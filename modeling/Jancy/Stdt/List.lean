import Jancy.Std.ListOperations
import Jancy.Stdt.Dictionary

/-! `stdt.List`: a program makes the entries, puts them on lists and takes them off. -/
namespace Jancy.Stdt

open Jancy.Std (placeBefore placeAfter placeMoved takeOut)

abbrev ListHeap := LinkedLists TableId EntryId

inductive ListCall where
  | clear (l : TableId)
  | takeOver (l src : TableId)
  | insertHead (l : TableId) (p : EntryId)
  | insertTail (l : TableId) (p : EntryId)
  | insertBefore (l : TableId) (p : EntryId) (beforeIt : Option EntryId)
  | insertAfter (l : TableId) (p : EntryId) (afterIt : Option EntryId)
  | moveToHead (l : TableId) (it : Option EntryId)
  | moveToTail (l : TableId) (it : Option EntryId)
  | moveBefore (l : TableId) (it beforeIt : Option EntryId)
  | moveAfter (l : TableId) (it afterIt : Option EntryId)
  | removeHead (l : TableId)
  | removeTail (l : TableId)
  | remove (l : TableId) (it : Option EntryId)

inductive ListResult where
  | void
  | entry (p : EntryId)
  | thrown
  deriving DecidableEq, Repr

namespace ListHeap

section Methods

variable (h : ListHeap) (l : TableId) (p : EntryId)

def insertHead : ListHeap := h.insertBetween l none (h.head l) p

def insertTail : ListHeap := h.insertBetween l (h.tail l) none p

def insertBefore (beforeIt : Option EntryId) : ListHeap :=
  match beforeIt with
  | none => insertTail h l p
  | some before => h.insertBetween l (h.prev before) (some before) p

def insertAfter (afterIt : Option EntryId) : ListHeap :=
  match afterIt with
  | none => insertHead h l p
  | some after => h.insertBetween l (some after) (h.next after) p

/-- `none` is a null dereference. -/
def remove (it : Option EntryId) : Option (ListHeap × EntryId) :=
  it.map fun p => (LinkedLists.remove h l p,p)

def moveWith (it : Option EntryId) (insert : ListHeap → EntryId → ListHeap) : Option ListHeap :=
  (remove h l it).map fun r => insert r.1 r.2

end Methods

/-- The assertion of `takeOver` may be compiled or not. -/
def call (asserts : Bool) (h : ListHeap) : ListCall → Option (ListHeap × ListResult)
  | .clear l => some (LinkedLists.clear h l,.void)
  | .takeOver l src =>
      if asserts && src == l then some (h,.thrown) else some (LinkedLists.takeOver h l src,.void)
  | .insertHead l p => some (insertHead h l p,.entry p)
  | .insertTail l p => some (insertTail h l p,.entry p)
  | .insertBefore l p beforeIt => some (insertBefore h l p beforeIt,.entry p)
  | .insertAfter l p afterIt => some (insertAfter h l p afterIt,.entry p)
  | .moveToHead l it => (moveWith h l it fun h p => insertHead h l p).map (·,.void)
  | .moveToTail l it => (moveWith h l it fun h p => insertTail h l p).map (·,.void)
  | .moveBefore l it beforeIt =>
      (moveWith h l it fun h p => insertBefore h l p beforeIt).map (·,.void)
  | .moveAfter l it afterIt =>
      (moveWith h l it fun h p => insertAfter h l p afterIt).map (·,.void)
  | .removeHead l => (remove h l (h.head l)).map fun r => (r.1,.entry r.2)
  | .removeTail l => (remove h l (h.tail l)).map fun r => (r.1,.entry r.2)
  | .remove l it => (remove h l it).map fun r => (r.1,.entry r.2)

def step (asserts : Bool) (h : ListHeap) (c : ListCall) : Option ListHeap :=
  (call asserts h c).map Prod.fst

/-- The sequences after a call; `none` where an entry or its place is not on the list. -/
def documented (seqs : TableId → List EntryId) : ListCall → Option (TableId → List EntryId)
  | .clear l => some (Function.update seqs l [])
  | .takeOver l src => some (if src = l then seqs else transferred seqs l src [])
  | .insertHead l p => (placeAfter none p (seqs l)).map (Function.update seqs l)
  | .insertTail l p => (placeBefore none p (seqs l)).map (Function.update seqs l)
  | .insertBefore l p beforeIt => (placeBefore beforeIt p (seqs l)).map (Function.update seqs l)
  | .insertAfter l p afterIt => (placeAfter afterIt p (seqs l)).map (Function.update seqs l)
  | .moveToHead l it => (placeMoved (placeAfter none) it (seqs l)).map (Function.update seqs l)
  | .moveToTail l it => (placeMoved (placeBefore none) it (seqs l)).map (Function.update seqs l)
  | .moveBefore l it beforeIt =>
      (placeMoved (placeBefore beforeIt) it (seqs l)).map (Function.update seqs l)
  | .moveAfter l it afterIt =>
      (placeMoved (placeAfter afterIt) it (seqs l)).map (Function.update seqs l)
  | .removeHead l => (takeOut (seqs l).head? (seqs l)).map (Function.update seqs l)
  | .removeTail l => (takeOut (seqs l).getLast? (seqs l)).map (Function.update seqs l)
  | .remove l it => (takeOut it (seqs l)).map (Function.update seqs l)

def documentedResult (asserts : Bool) (seqs : TableId → List EntryId) : ListCall → ListResult
  | .insertHead _ p | .insertTail _ p | .insertBefore _ p _ | .insertAfter _ p _ => .entry p
  | .removeHead l => ((seqs l).head?.map .entry).getD .void
  | .removeTail l => ((seqs l).getLast?.map .entry).getD .void
  | .remove _ it => (it.map .entry).getD .void
  | .takeOver l src => if asserts && src == l then .thrown else .void
  | _ => .void

def inserted : ListCall → Option EntryId
  | .insertHead _ p | .insertTail _ p | .insertBefore _ p _ | .insertAfter _ p _ => some p
  | _ => none

def InPlace (h : ListHeap) (c : ListCall) : Prop :=
  ∃ seqs, h.Represents seqs ∧ (documented seqs c).isSome ∧ ∀ p ∈ inserted c, ∀ l, p ∉ seqs l

/-- The call returns, and the sequences afterwards are as documented. -/
def Serves (asserts : Bool) (h : ListHeap) (c : ListCall) (h' : ListHeap) : Prop :=
  ∃ seqs seqs' r, h.Represents seqs ∧ documented seqs c = some seqs' ∧
    call asserts h c = some (h',r) ∧ h'.Represents seqs' ∧ r = documentedResult asserts seqs c

/-- A list that takes over itself is empty, or it is told so. -/
def TransferOk (asserts : Bool) (h : ListHeap) : ListCall → Prop
  | .takeOver l src => src = l → asserts = true ∨ h.head l = none
  | _ => True

variable {h h' : ListHeap} {seqs seqs' : TableId → List EntryId} {l src : TableId}
  {p : EntryId} {it : Option EntryId} {asserts : Bool}

/-- An insertion puts what is on no list where `place` says. -/
def Puts (l : TableId) (insert : ListHeap → EntryId → ListHeap)
    (place : EntryId → List EntryId → Option (List EntryId)) : Prop :=
  ∀ (h : ListHeap) (seqs : TableId → List EntryId) (p : EntryId) (zs : List EntryId),
    h.Represents seqs → (∀ l', p ∉ seqs l') → place p (seqs l) = some zs →
      (insert h p).Represents (Function.update seqs l zs)

theorem insertTail_puts (l : TableId) : Puts l (fun h p => insertTail h l p) (placeBefore none) := by
  intro h seqs p zs hr hfresh hplace
  obtain rfl : seqs l ++ [p] = zs := Option.some.inj hplace
  exact hr.insertTail hfresh

theorem insertHead_puts (l : TableId) : Puts l (fun h p => insertHead h l p) (placeAfter none) := by
  intro h seqs p zs hr hfresh hplace
  obtain rfl : p :: seqs l = zs := Option.some.inj hplace
  exact hr.insertHead hfresh

theorem insertBefore_puts (l : TableId) (beforeIt : Option EntryId) :
    Puts l (fun h p => insertBefore h l p beforeIt) (placeBefore beforeIt) := by
  cases beforeIt with
  | none => exact insertTail_puts l
  | some before =>
    intro h seqs p zs hr hfresh hplace
    exact (Jancy.Std.ListHeap.represents_insertBefore hr hfresh hplace).1

theorem insertAfter_puts (l : TableId) (afterIt : Option EntryId) :
    Puts l (fun h p => insertAfter h l p afterIt) (placeAfter afterIt) := by
  cases afterIt with
  | none => exact insertHead_puts l
  | some after =>
    intro h seqs p zs hr hfresh hplace
    exact (Jancy.Std.ListHeap.represents_insertAfter hr hfresh hplace).1

variable {c : ListCall}

section

variable (hr : h.Represents seqs)

include hr

theorem serves_insert {insert : ListHeap → EntryId → ListHeap}
    {place : EntryId → List EntryId → Option (List EntryId)} (hputs : Puts l insert place)
    (hcall : call asserts h c = some (insert h p,.entry p))
    (hdoc : documented seqs c = (place p (seqs l)).map (Function.update seqs l))
    (hresult : documentedResult asserts seqs c = .entry p) (hfresh : ∀ l', p ∉ seqs l')
    (hplace : (documented seqs c).isSome) : ∃ h', Serves asserts h c h' := by
  rw [hdoc,Option.isSome_map] at hplace
  obtain ⟨zs,hzs⟩ := Option.isSome_iff_exists.mp hplace
  refine ⟨_,seqs,_,_,hr,?_,hcall,hputs h seqs p zs hr hfresh hzs,hresult.symm⟩
  rw [hdoc,hzs]
  rfl

theorem serves_move {insert : ListHeap → EntryId → ListHeap}
    {place : EntryId → List EntryId → Option (List EntryId)} (hputs : Puts l insert place)
    (hcall : call asserts h c = (moveWith h l it insert).map (·,.void))
    (hdoc : documented seqs c = (placeMoved place it (seqs l)).map (Function.update seqs l))
    (hresult : documentedResult asserts seqs c = .void) (hplace : (documented seqs c).isSome) :
    ∃ h', Serves asserts h c h' := by
  rw [hdoc,Option.isSome_map] at hplace
  cases it with
  | none => cases hplace
  | some p =>
    rw [placeMoved] at hplace
    split at hplace
    · rename_i hmem
      obtain ⟨zs,hzs⟩ := Option.isSome_iff_exists.mp hplace
      obtain ⟨hremoved,hfresh⟩ := hr.remove hmem
      have hfound : place p (Function.update seqs l ((seqs l).erase p) l) = some zs := by
        rwa [Function.update_self]
      have hput := hputs _ _ p zs hremoved hfresh hfound
      rw [Function.update_idem] at hput
      refine ⟨_,seqs,_,_,hr,?_,hcall,hput,hresult.symm⟩
      rw [hdoc,placeMoved,if_pos hmem,hzs]
      rfl
    · cases hplace

theorem serves_remove (hcall : call asserts h c = (remove h l it).map fun r => (r.1,.entry r.2))
    (hdoc : documented seqs c = (takeOut it (seqs l)).map (Function.update seqs l))
    (hresult : documentedResult asserts seqs c = (it.map .entry).getD .void)
    (hplace : (documented seqs c).isSome) : ∃ h', Serves asserts h c h' := by
  rw [hdoc,Option.isSome_map] at hplace
  cases it with
  | none => cases hplace
  | some p =>
    rw [takeOut] at hplace
    split at hplace
    · rename_i hmem
      refine ⟨_,seqs,_,_,hr,?_,hcall,(hr.remove hmem).1,hresult.symm⟩
      rw [hdoc,takeOut,if_pos hmem]
      rfl
    · cases hplace

theorem head_eq_none_iff : h.head l = none ↔ seqs l = [] := by
  have hhead : h.head l = (seqs l).head? := (hr.links l).next_none
  rw [hhead,List.head?_eq_none_iff]

theorem serves_takeOver (hok : TransferOk asserts h (.takeOver l src)) :
    ∃ h', Serves asserts h (.takeOver l src) h' := by
  by_cases hself : src = l
  · subst hself
    cases hasserts : asserts with
    | true =>
      refine ⟨h,seqs,seqs,.thrown,hr,?_,?_,hr,?_⟩
      · simp [documented]
      · simp [call]
      · simp [documentedResult]
    | false =>
      have hempty := hok rfl
      rw [hasserts,head_eq_none_iff hr] at hempty
      have hempty : seqs src = [] := by simpa using hempty
      have hcleared := hr.clear src
      rw [← hempty,Function.update_eq_self,← LinkedLists.takeOver_self] at hcleared
      refine ⟨LinkedLists.takeOver h src src,seqs,seqs,.void,hr,?_,?_,hcleared,?_⟩
      · simp [documented]
      · simp [call]
      · simp [documentedResult]
  · refine ⟨LinkedLists.takeOver h l src,seqs,_,.void,hr,?_,?_,hr.takeOver hself,?_⟩
    · simp [documented,hself,transferred]
    · simp [call,hself]
    · simp [documentedResult,hself]

end

theorem serves (hplace : InPlace h c) (hok : TransferOk asserts h c) :
    ∃ h', Serves asserts h c h' := by
  obtain ⟨seqs,hr,hplace,hfresh⟩ := hplace
  cases c with
  | clear l => exact ⟨_,seqs,_,.void,hr,rfl,rfl,hr.clear l,rfl⟩
  | takeOver l src => exact serves_takeOver hr hok
  | insertHead l p =>
    exact serves_insert hr (insertHead_puts l) rfl rfl rfl (hfresh p rfl) hplace
  | insertTail l p =>
    exact serves_insert hr (insertTail_puts l) rfl rfl rfl (hfresh p rfl) hplace
  | insertBefore l p beforeIt =>
    exact serves_insert hr (insertBefore_puts l beforeIt) rfl rfl rfl (hfresh p rfl) hplace
  | insertAfter l p afterIt =>
    exact serves_insert hr (insertAfter_puts l afterIt) rfl rfl rfl (hfresh p rfl) hplace
  | moveToHead l it => exact serves_move hr (insertHead_puts l) rfl rfl rfl hplace
  | moveToTail l it => exact serves_move hr (insertTail_puts l) rfl rfl rfl hplace
  | moveBefore l it beforeIt =>
    exact serves_move hr (insertBefore_puts l beforeIt) rfl rfl rfl hplace
  | moveAfter l it afterIt =>
    exact serves_move hr (insertAfter_puts l afterIt) rfl rfl rfl hplace
  | removeHead l =>
    have hhead : h.head l = (seqs l).head? := (hr.links l).next_none
    exact serves_remove hr (by rw [← hhead]; rfl) rfl rfl hplace
  | removeTail l =>
    have htail : h.tail l = (seqs l).getLast? := (hr.links l).prev_none
    exact serves_remove hr (by rw [← htail]; rfl) rfl rfl hplace
  | remove l it => exact serves_remove hr rfl rfl rfl hplace

theorem transferOk_of_serves (hserves : Serves asserts h c h') :
    TransferOk asserts h c := by
  cases c with
  | takeOver l src =>
    rintro rfl
    obtain ⟨seqs,seqs',r,hr,hdoc,hcall,hr',-⟩ := hserves
    cases asserts with
    | true => exact .inl rfl
    | false =>
      right
      obtain rfl : seqs = seqs' := by simpa [documented] using hdoc
      have hstep : call false h (.takeOver src src) =
          some (LinkedLists.takeOver h src src,.void) := by
        simp [call]
      obtain rfl := (Prod.mk.inj (Option.some.inj (hcall.symm.trans hstep))).1
      rw [LinkedLists.takeOver_self] at hr'
      have hempty := (head_eq_none_iff (l := src) hr').mp (by simp [LinkedLists.clear,
        LinkedLists.setEnds])
      exact (head_eq_none_iff hr).mpr hempty
  | _ => trivial

theorem served_iff (asserts : Bool) {calls : List ListCall}
    (hplace : Run.Before (step asserts) InPlace .empty calls) :
    Run.Through (step asserts) (Serves asserts) .empty calls ↔
      Run.Before (step asserts) (TransferOk asserts) .empty calls := by
  refine Run.through_iff_before_of_before (I := fun h => ∃ seqs, h.Represents seqs) ?_ ?_
    ⟨_,LinkedLists.empty_represents⟩ hplace
  · intro h c _ hplace hok
    obtain ⟨h',hserves⟩ := serves hplace hok
    have ⟨_,seqs',r,_,_,hcall,hr',_⟩ := hserves
    refine ⟨h',?_,hserves,seqs',hr'⟩
    rw [step,hcall]
    rfl
  · exact fun h c h' _ _ _ hserves => transferOk_of_serves hserves

end ListHeap

end Jancy.Stdt
