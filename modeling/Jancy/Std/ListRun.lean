import Jancy.Std.ListOperations

/-! The calls of `std.List`, and the runs that keep their promise. -/
namespace Jancy.Std

namespace ListHeap

variable {V : Type}

section Calls

variable [Inhabited V] {h : ListHeap V} {seqs : ListId → List EntryId} {l : ListId}

/-- The call returns, and the sequences and data afterwards are as documented. -/
structure Does (h : ListHeap V) (seqs : ListId → List EntryId) (c : ListCall V)
    (h' : ListHeap V) (result : ListResult V) : Prop where
  call : h.call c = some (h',result)
  represents : h'.Represents ((documented seqs h.allocated c).getD seqs)
  result : result = documentedResult h seqs c
  data : h'.data = dataAfter h c

theorem Represents.does_clear (hr : h.Represents seqs) (l : ListId) :
    ∃ h' result, Does h seqs (.clear l) h' result := by
  refine ⟨_,.void,?_,hr.clear l,rfl,rfl⟩
  rw [ListHeap.call,hr.clear_eq]
  rfl

theorem Represents.does_takeOver (hr : h.Represents seqs) {list : Option ListId}
    (hok : list = some l → seqs l = []) :
    ∃ h' result, Does h seqs (.takeOver l list) h' result := by
  cases list with
  | none =>
    refine ⟨_,.void,?_,hr.clear l,rfl,rfl⟩
    rw [ListHeap.call,ListHeap.takeOver,hr.clear_eq]
    rfl
  | some src =>
    by_cases heq : src = l
    · subst heq
      have hempty := hok rfl
      have hcleared := (hr.lists.clear src)
      have hupdate : Function.update seqs src [] = seqs := by
        rw [← hempty,Function.update_eq_self]
      rw [hupdate,← LinkedLists.takeOver_self] at hcleared
      refine ⟨{ h with lists := h.lists.takeOver src src },.void,?_,?_,rfl,rfl⟩
      · rw [ListHeap.call,hr.takeOver_eq,hempty]
        simp [withOwner]
      · simpa [documented] using ⟨hcleared,hr.owner,hr.allocated⟩
    · refine ⟨{ h.withOwner (some l) (seqs src) with lists := h.lists.takeOver l src },.void,
        ?_,?_,rfl,rfl⟩
      · rw [ListHeap.call,hr.takeOver_eq]
        rfl
      · simpa [documented,heq] using hr.takeOver heq

variable {c : ListCall V}

theorem Represents.does_insert (hr : h.Represents seqs) {impl : ListHeap V → EntryId → ListHeap V}
    {place : EntryId → List EntryId → Option (List EntryId)} {data : V} (hp : Places l impl place)
    (hcall : h.call c = some (h.insertWith l data impl)) (hdoc : documented seqs h.allocated c =
      (place h.allocated (seqs l)).map (Function.update seqs l))
    (hresult : documentedResult h seqs c =
      .entry ((documented seqs h.allocated c).map fun _ => h.allocated))
    (hinserted : c.inserted = some data) (hok : (place h.allocated (seqs l)).isSome) :
    ∃ h' result, Does h seqs c h' result := by
  obtain ⟨zs,hzs⟩ := Option.isSome_iff_exists.mp hok
  obtain ⟨hrep,hdata⟩ := hr.insertWith hp data hzs
  refine ⟨(h.insertWith l data impl).1,.entry (some h.allocated),hcall,?_,?_,?_⟩
  · simpa [hdoc,hzs] using hrep
  · simp [hresult,hdoc,hzs]
  · simp [hdata,dataAfter,hinserted]

theorem Represents.does_move (hr : h.Represents seqs) {entry : Option EntryId}
    {impl : ListHeap V → EntryId → ListHeap V}
    {place : EntryId → List EntryId → Option (List EntryId)} (hp : Places l impl place)
    (hcall : h.call c = some (h.moveWith l entry impl,.void))
    (hdoc : documented seqs h.allocated c =
      (placeMoved place entry (seqs l)).map (Function.update seqs l))
    (hresult : documentedResult h seqs c = .void) (hinserted : c.inserted = none)
    (hok : ∀ e ∈ entry, h.owner e = some l →
      e ∈ seqs l ∧ (place e ((seqs l).erase e)).isSome) :
    ∃ h' result, Does h seqs c h' result := by
  obtain ⟨hrep,hdata⟩ := hr.moveWith hp hok
  refine ⟨_,.void,hcall,?_,hresult.symm,?_⟩
  · rwa [hdoc]
  · rw [hdata,dataAfter,hinserted]

theorem Represents.does_remove (hr : h.Represents seqs) {entry : Option EntryId}
    (hcall : h.call c = some (h.remove l entry)) (hdoc : documented seqs h.allocated c =
      (takeOut entry (seqs l)).map (Function.update seqs l))
    (hresult : documentedResult h seqs c = .data (dataOf h entry (seqs l)))
    (hinserted : c.inserted = none) (hok : ∀ e ∈ entry, h.owner e = some l → e ∈ seqs l) :
    ∃ h' result, Does h seqs c h' result := by
  obtain ⟨hrep,hdataOf,hdata⟩ := hr.remove hok
  refine ⟨(h.remove l entry).1,(h.remove l entry).2,hcall,?_,?_,?_⟩
  · rwa [hdoc]
  · rw [hdataOf,hresult]
  · rw [hdata,dataAfter,hinserted]

theorem placeBefore_isSome {before : Option EntryId} {xs : List EntryId}
    (hok : ∀ b ∈ before, b ∈ xs) (e : EntryId) : (placeBefore before e xs).isSome := by
  cases before with
  | none => rfl
  | some b => simp [placeBefore,hok b rfl]

theorem placeAfter_isSome {after : Option EntryId} {xs : List EntryId}
    (hok : ∀ a ∈ after, a ∈ xs) (e : EntryId) : (placeAfter after e xs).isSome := by
  cases after with
  | none => rfl
  | some a => simp [placeAfter,hok a rfl]

theorem mem_erase_of_place {place : Option EntryId} {xs : List EntryId} {e : EntryId}
    (hok : ∀ b ∈ place, b ≠ e ∧ b ∈ xs) : ∀ b ∈ place, b ∈ xs.erase e :=
  fun b hb => (List.mem_erase_of_ne (hok b hb).1).mpr (hok b hb).2

theorem Represents.does (hr : h.Represents seqs) (hok : h.argumentsOk c = true) :
    ∃ h' result, Does h seqs c h' result := by
  cases c with
  | clear l => exact hr.does_clear l
  | takeOver l list =>
    simp only [argumentsOk,decide_eq_true_eq,hr.entriesOf_eq] at hok
    exact hr.does_takeOver hok
  | insertHead l data =>
    exact hr.does_insert (insertHeadImpl_places l) rfl rfl rfl rfl rfl
  | insertTail l data =>
    exact hr.does_insert (insertTailImpl_places l) rfl rfl rfl rfl rfl
  | insertBefore l data before =>
    simp only [argumentsOk,decide_eq_true_eq,hr.entriesOf_eq] at hok
    exact hr.does_insert (insertBeforeImpl_places l before) rfl rfl rfl rfl
      (placeBefore_isSome hok _)
  | insertAfter l data after =>
    simp only [argumentsOk,decide_eq_true_eq,hr.entriesOf_eq] at hok
    exact hr.does_insert (insertAfterImpl_places l after) rfl rfl rfl rfl
      (placeAfter_isSome hok _)
  | moveToHead l entry =>
    simp only [argumentsOk,decide_eq_true_eq,hr.entriesOf_eq] at hok
    exact hr.does_move (insertHeadImpl_places l) rfl rfl rfl rfl
      (fun e he howner => ⟨hok e he howner,rfl⟩)
  | moveToTail l entry =>
    simp only [argumentsOk,decide_eq_true_eq,hr.entriesOf_eq] at hok
    exact hr.does_move (insertTailImpl_places l) rfl rfl rfl rfl
      (fun e he howner => ⟨hok e he howner,rfl⟩)
  | moveBefore l entry before =>
    simp only [argumentsOk,decide_eq_true_eq,hr.entriesOf_eq] at hok
    apply hr.does_move (insertBeforeImpl_places l before) rfl rfl rfl rfl
    intro e he howner
    obtain ⟨hmem,hplace⟩ := hok e he howner
    exact ⟨hmem,placeBefore_isSome (mem_erase_of_place hplace) e⟩
  | moveAfter l entry after =>
    simp only [argumentsOk,decide_eq_true_eq,hr.entriesOf_eq] at hok
    apply hr.does_move (insertAfterImpl_places l after) rfl rfl rfl rfl
    intro e he howner
    obtain ⟨hmem,hplace⟩ := hok e he howner
    exact ⟨hmem,placeAfter_isSome (mem_erase_of_place hplace) e⟩
  | removeHead l =>
    have hhead : h.lists.head l = (seqs l).head? := (hr.lists.links l).next_none
    apply hr.does_remove (by rw [← hhead]; rfl) rfl rfl rfl
    exact fun e he _ => List.mem_of_head? he
  | removeTail l =>
    have htail : h.lists.tail l = (seqs l).getLast? := (hr.lists.links l).prev_none
    apply hr.does_remove (by rw [← htail]; rfl) rfl rfl rfl
    exact fun e he _ => List.mem_of_getLast? he
  | remove l entry =>
    simp only [argumentsOk,decide_eq_true_eq,hr.entriesOf_eq] at hok
    exact hr.does_remove rfl rfl rfl rfl hok

theorem WellFormed.call_isSome (hw : h.WellFormed) (c : ListCall V) : (h.call c).isSome := by
  have hr : h.Represents h.entriesOf := hw
  cases c with
  | clear l => simp [ListHeap.call,hr.clear_eq]
  | takeOver l list =>
    cases list with
    | none => simp [ListHeap.call,ListHeap.takeOver,hr.clear_eq]
    | some src => simp [ListHeap.call,hr.takeOver_eq]
  | _ => rfl

theorem initial_represents : (initial : ListHeap V).Represents (fun _ => []) where
  lists := LinkedLists.empty_represents
  owner _ _ he := absurd he List.not_mem_nil
  allocated _ _ he := absurd he List.not_mem_nil

theorem WellFormed.answered (hw : h.WellFormed) (hok : h.argumentsOk c = true) :
    ∃ h', h.step c = some h' ∧ h'.WellFormed ∧ h.Answered c := by
  obtain ⟨h',result,hdoes⟩ := Represents.does hw hok
  have hstep : h.step c = some h' := by rw [step,hdoes.call]; rfl
  refine ⟨h',hstep,hdoes.represents.wellFormed,h',result,hdoes.call,?_⟩
  exact ⟨hdoes.represents.entriesOf_eq,hdoes.result,hdoes.data⟩

theorem WellFormed.run (hw : h.WellFormed) {calls : List (ListCall V)}
    (hok : Run.Along step (fun h c => h.argumentsOk c = true) h calls) :
    (∃ h', Run.exec step h calls = some h') ∧ Run.Always step WellFormed h calls ∧
      Run.Along step Answered h calls := by
  induction calls generalizing h with
  | nil => exact ⟨⟨h,rfl⟩,hw,trivial⟩
  | cons c calls ih =>
    obtain ⟨h',hstep'⟩ : ∃ h', h.step c = some h' := by
      obtain ⟨r,hr⟩ := Option.isSome_iff_exists.mp (hw.call_isSome c)
      exact ⟨r.1,by rw [step,hr]; rfl⟩
    simp only [Run.Along,Run.Always,Run.exec,hstep'] at hok ⊢
    obtain ⟨h'',hstep,hw',hanswered⟩ := hw.answered hok.1
    obtain rfl : h' = h'' := Option.some.inj (hstep'.symm.trans hstep)
    obtain ⟨hreturns,halways,halong⟩ := ih hw' hok.2
    exact ⟨hreturns,⟨hw,halways⟩,hanswered,halong⟩

/-- Lists stay well formed, and calls do what is documented, as long as arguments are in order. -/
theorem kept_of_argumentsOk (calls : List (ListCall V))
    (hok : Run.Along step (fun h c => h.argumentsOk c = true) initial calls) :
    Kept calls := by
  obtain ⟨hreturns,halways,halong⟩ := initial_represents.wellFormed.run hok
  exact ⟨hreturns,halways,halong⟩

theorem kept_of_argumentsOk_move : Kept [.insertTail 0 (5 : ℕ),.insertTail 0 6,
    .moveBefore 0 (some 1) (some 0),.remove 0 (some 0),.remove 0 (some 0)] :=
  kept_of_argumentsOk _ (by decide)

/-- An entry that was removed is taken for a place in the list. -/
theorem not_kept_stale_place :
    ¬ Kept [.insertTail 0 (5 : ℕ),.remove 0 (some 0),.insertBefore 0 6 (some 0)] := by
  rintro ⟨⟨h,hexec⟩,halways,-⟩
  have hw := halways.last hexec
  cases hexec
  exact absurd (hw.lists.count 0) (by decide)

end Calls

end ListHeap

end Jancy.Std

/-! Transfers between objects of `std.List`: what they leave behind. -/
namespace Jancy.Std.ListHeap

variable {V : Type} {h h' : ListHeap V} {seqs : ListId → List EntryId} {l src : ListId}

def Detaches (h : ListHeap V) (c : ListCall V) (h' : ListHeap V) : Prop :=
  match c with
  | .takeOver l _ => ∀ e ∈ h.entriesOf l, e ∈ h'.entriesOf l ∨ h'.owner e = none
  | _ => True

variable [Inhabited V]

/-- The call returns and has its documented effect, and entries that a transfer drops are
detached. -/
def Serves (h : ListHeap V) (c : ListCall V) (h' : ListHeap V) : Prop :=
  ∃ result, h.call c = some (h',result) ∧ h'.WellFormed ∧ h.Answers c h' result ∧ h.Detaches c h'

omit [Inhabited V] in
/-- The arguments of a call other than a transfer are in order. -/
def InPlace (h : ListHeap V) : ListCall V → Prop
  | .takeOver _ _ => True
  | c => h.argumentsOk c = true

omit [Inhabited V] in
def TransferOk (h : ListHeap V) : ListCall V → Prop
  | .takeOver l (some _) => h.entriesOf l = []
  | _ => True

theorem Represents.serves (hr : h.Represents seqs) {c : ListCall V} (hplace : h.InPlace c)
    (hok : h.TransferOk c) : ∃ h', h.Serves c h' := by
  have hargs : h.argumentsOk c = true := by
    cases c with
    | takeOver l list =>
      cases list with
      | none => simp [argumentsOk]
      | some src => exact decide_eq_true fun _ => hok
    | _ => exact hplace
  obtain ⟨h',result,hdoes⟩ := hr.does hargs
  refine ⟨h',result,hdoes.call,hdoes.represents.wellFormed,⟨?_,?_,hdoes.data⟩,?_⟩
  · rw [hr.entriesOf_eq]
    exact hdoes.represents.entriesOf_eq
  · rw [hr.entriesOf_eq]
    exact hdoes.result
  · cases c with
    | takeOver l list =>
      cases list with
      | none =>
        have hcall := hdoes.call
        rw [ListHeap.call,ListHeap.takeOver,hr.clear_eq] at hcall
        obtain ⟨rfl,-⟩ := Prod.mk.inj (Option.some.inj hcall)
        intro e he
        rw [hr.entriesOf_eq] at he
        exact .inr (if_pos he)
      | some src =>
        intro e he
        rw [show h.entriesOf l = [] from hok] at he
        cases he
    | _ => trivial

omit [Inhabited V] in
theorem Represents.takeOver_self (hr : h.Represents seqs) (l : ListId) :
    Represents { h.withOwner (some l) (seqs l) with lists := h.lists.takeOver l l }
      (Function.update seqs l []) := by
  have hold : ∀ k, ∀ x ∈ Function.update seqs l [] k, k ≠ l ∧ x ∈ seqs k := by
    intro k x hx
    by_cases heq : k = l
    · subst heq
      simp at hx
    · rw [Function.update_of_ne heq] at hx
      exact ⟨heq,hx⟩
  refine ⟨?_,?_,fun k x hx => hr.allocated k x (hold k x hx).2⟩
  · rw [LinkedLists.takeOver_self]
    exact hr.lists.clear l
  · intro k x hx
    obtain ⟨hne,hmem⟩ := hold k x hx
    have hnot : x ∉ seqs l := fun hmem' => hne (hr.lists.disjoint hmem hmem')
    simp [withOwner,hnot,hr.owner k x hmem]

theorem Represents.transferOk_of_serves (hr : h.Represents seqs) {c : ListCall V}
    (hserves : h.Serves c h') : h.TransferOk c := by
  cases c with
  | takeOver l list =>
    cases list with
    | none => trivial
    | some src =>
      obtain ⟨result,hcall,-,hanswers,hdetaches⟩ := hserves
      rw [ListHeap.call,hr.takeOver_eq] at hcall
      have hheap := (Prod.mk.inj (Option.some.inj hcall)).1
      rw [TransferOk]
      by_cases hself : src = l
      · subst hself
        have hrep := hr.takeOver_self src
        rw [hheap] at hrep
        have hseq := congrFun hanswers.sequences src
        rw [hrep.entriesOf_eq,Function.update_self] at hseq
        simpa [documented] using hseq.symm
      · have hrep := hr.takeOver hself
        rw [hheap] at hrep
        rw [List.eq_nil_iff_forall_not_mem]
        intro e he
        rw [hr.entriesOf_eq] at he
        have hnot : e ∉ seqs src := fun hmem => hself (hr.lists.disjoint hmem he)
        rcases hdetaches e (hr.entriesOf_eq ▸ he) with hmem | hnone
        · rw [hrep.entriesOf_eq,Function.update_of_ne (Ne.symm hself),
            Function.update_self] at hmem
          exact hnot hmem
        · rw [← hheap] at hnone
          have howner := hr.owner l e he
          simp [withOwner,hnot,howner] at hnone
  | _ => trivial

theorem served_iff {calls : List (ListCall V)} (hplace : Run.Before step InPlace initial calls) :
    Run.Through step Serves initial calls ↔ Run.Before step TransferOk initial calls := by
  refine Run.through_iff_before_of_before (I := WellFormed) ?_ ?_ initial_represents.wellFormed
    hplace
  · intro h c hw hplace hok
    obtain ⟨h',hserves⟩ := Represents.serves hw hplace hok
    have ⟨result,hcall,hw',_⟩ := hserves
    refine ⟨h',?_,hserves,hw'⟩
    rw [step,hcall]
    rfl
  · exact fun h c h' hw _ _ hserves => Represents.transferOk_of_serves hw hserves

end Jancy.Std.ListHeap
