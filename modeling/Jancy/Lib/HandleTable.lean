import Mathlib.Data.Int.Notation
import Mathlib.Data.List.Nodup

/-! Tables that hand out handles and are iterated in the order of insertion. The structure is an
interface with its laws; an implementation supplies both. -/

abbrev Handle := ℕ

namespace HandleTable

variable {V : Type}

/-- The loop over the entries that follow the one of `h`. -/
def mapAfter (h : Handle) (f : V → V) : List (Handle × V) → List (Handle × V)
  | [] => []
  | e :: l => if e.1 = h then e :: l.map (fun e => (e.1,f e.2)) else e :: mapAfter h f l

def eraseHandle (h : Handle) (l : List (Handle × V)) : List (Handle × V) :=
  l.filter fun e => decide (e.1 ≠ h)

end HandleTable

/-- `issued` lists every handle that the table has ever returned: a handle is not reused, not
even after the table was cleared. -/
structure HandleTable (V : Type) where
  Table : Type
  new : Table
  clear : Table → Table
  add : Table → V → Handle × Table
  find : Table → Handle → Option V
  mapFollowing : Table → Handle → (V → V) → Table
  erase : Table → Handle → Table
  entries : Table → List (Handle × V)
  issued : Table → List Handle
  entries_new : entries new = []
  entries_clear : ∀ t, entries (clear t) = []
  issued_clear : ∀ t, issued (clear t) = issued t
  add_fresh : ∀ t v, (add t v).1 ∉ issued t
  entries_add : ∀ t v, entries (add t v).2 = entries t ++ [((add t v).1,v)]
  issued_add : ∀ t v, issued (add t v).2 = (add t v).1 :: issued t
  find_eq : ∀ t h, find t h = (entries t).lookup h
  entries_mapFollowing : ∀ t h f,
    entries (mapFollowing t h f) = HandleTable.mapAfter h f (entries t)
  issued_mapFollowing : ∀ t h f, issued (mapFollowing t h f) = issued t
  entries_erase : ∀ t h, entries (erase t h) = HandleTable.eraseHandle h (entries t)
  issued_erase : ∀ t h, issued (erase t h) = issued t

namespace HandleTable

section Lists

variable {V : Type}

variable {l₁ l₂ : List (Handle × V)} {h : Handle}

theorem lookup_of_split {v : V} (hl : h ∉ l₁.map Prod.fst) :
    (l₁ ++ (h,v) :: l₂).lookup h = some v := by
  induction l₁ with
  | nil => simp
  | cons e l ih =>
    obtain ⟨k,w⟩ := e
    obtain ⟨hne,hrest⟩ : h ≠ k ∧ h ∉ l.map Prod.fst := by simpa using hl
    have hbeq : (h == k) = false := by simpa using hne
    simp only [List.cons_append,List.lookup_cons,hbeq]
    exact ih hrest

variable {l : List (Handle × V)}

theorem lookup_none (hl : h ∉ l.map Prod.fst) :
    l.lookup h = none := by
  induction l with
  | nil => rfl
  | cons e l ih =>
    obtain ⟨k,w⟩ := e
    obtain ⟨hne,hrest⟩ : h ≠ k ∧ h ∉ l.map Prod.fst := by simpa using hl
    have hbeq : (h == k) = false := by simpa using hne
    simp only [List.lookup_cons,hbeq]
    exact ih hrest

theorem mapAfter_of_split {v : V} (f : V → V) (hl : h ∉ l₁.map Prod.fst) :
    mapAfter h f (l₁ ++ (h,v) :: l₂) = l₁ ++ (h,v) :: l₂.map fun e => (e.1,f e.2) := by
  induction l₁ with
  | nil => simp [mapAfter]
  | cons e l ih =>
    obtain ⟨hne,hrest⟩ : h ≠ e.1 ∧ h ∉ l.map Prod.fst := by simpa using hl
    simp only [List.cons_append,mapAfter,if_neg (Ne.symm hne),ih hrest]

theorem eraseHandle_eq_self (hl : h ∉ l.map Prod.fst) :
    eraseHandle h l = l := by
  refine List.filter_eq_self.mpr fun e he => ?_
  have hne : e.1 ≠ h := fun heq => hl (heq ▸ List.mem_map_of_mem he)
  simpa using hne

theorem eraseHandle_of_split {v : V} (h₁ : h ∉ l₁.map Prod.fst) (h₂ : h ∉ l₂.map Prod.fst) :
    eraseHandle h (l₁ ++ (h,v) :: l₂) = l₁ ++ l₂ := by
  have hhead : eraseHandle h ((h,v) :: l₂) = eraseHandle h l₂ := by simp [eraseHandle]
  calc eraseHandle h (l₁ ++ (h,v) :: l₂)
      = eraseHandle h l₁ ++ eraseHandle h ((h,v) :: l₂) := List.filter_append l₁ _
    _ = l₁ ++ l₂ := by rw [hhead,eraseHandle_eq_self h₁,eraseHandle_eq_self h₂]

theorem split_of_mem (hl : (l.map Prod.fst).Nodup) (hm : h ∈ l.map Prod.fst) :
    ∃ l₁ v l₂, l = l₁ ++ (h,v) :: l₂ ∧
      h ∉ l₁.map Prod.fst ∧ h ∉ l₂.map Prod.fst := by
  obtain ⟨⟨h',v⟩,he,rfl⟩ := List.mem_map.mp hm
  obtain ⟨l₁,l₂,rfl⟩ := List.append_of_mem he
  rw [List.map_append,List.map_cons] at hl
  have hnot := (List.nodup_cons.mp (List.nodup_middle.mp hl)).1
  rw [List.mem_append] at hnot
  exact ⟨l₁,v,l₂,rfl,fun h₁ => hnot (.inl h₁),fun h₂ => hnot (.inr h₂)⟩

theorem nodup_of_split {v : V} (hl : ((l₁ ++ (h,v) :: l₂).map Prod.fst).Nodup) :
    h ∉ l₁.map Prod.fst ∧ h ∉ l₂.map Prod.fst ∧ ((l₁ ++ l₂).map Prod.fst).Nodup := by
  rw [List.map_append,List.map_cons] at hl
  obtain ⟨hnot,hnd⟩ := List.nodup_cons.mp (List.nodup_middle.mp hl)
  rw [List.mem_append] at hnot
  exact ⟨fun h₁ => hnot (.inl h₁),fun h₂ => hnot (.inr h₂),by rwa [List.map_append]⟩

end Lists

section Records

variable {V W : Type} {H : HandleTable V} {entry : W → Handle × V} {t : H.Table}

theorem find_record {l : List W} (hl : H.entries t = l.map entry)
    (hnd : (l.map fun w => (entry w).1).Nodup) {h : Handle} {v : V} (hf : H.find t h = some v) :
    ∃ l₁ w l₂, l = l₁ ++ w :: l₂ ∧ entry w = (h,v) := by
  have hkeys : (H.entries t).map Prod.fst = l.map fun w => (entry w).1 := by
    rw [hl,List.map_map]
    rfl
  have hm : h ∈ (H.entries t).map Prod.fst := by
    by_contra hnot
    rw [H.find_eq,lookup_none hnot] at hf
    cases hf
  obtain ⟨l₁,v',l₂,heq,hl₁,-⟩ := split_of_mem (hkeys ▸ hnd) hm
  rw [H.find_eq,heq,lookup_of_split hl₁] at hf
  obtain rfl := Option.some.inj hf
  rw [hl] at heq
  obtain ⟨r₁,r,hrest,-,hr⟩ := List.map_eq_append_iff.mp heq
  obtain ⟨w,r₂,hcons,hw,-⟩ := List.map_eq_cons_iff.mp hr
  exact ⟨r₁,w,r₂,by rw [hrest,hcons],hw⟩

theorem entries_erase_record {l₁ l₂ : List W} {w : W}
    (hl : H.entries t = (l₁ ++ w :: l₂).map entry)
    (hnd : ((l₁ ++ w :: l₂).map fun w => (entry w).1).Nodup) :
    H.entries (H.erase t (entry w).1) = (l₁ ++ l₂).map entry := by
  have hkeys : (((l₁ ++ w :: l₂).map entry).map Prod.fst).Nodup := by
    rw [List.map_map]
    exact hnd
  rw [List.map_append,List.map_cons] at hkeys hl
  obtain ⟨h₁,h₂,-⟩ := nodup_of_split (h := (entry w).1) (v := (entry w).2) hkeys
  rw [H.entries_erase,hl,show entry w = ((entry w).1,(entry w).2) from rfl,
    eraseHandle_of_split h₁ h₂,List.map_append]

end Records

def counting (V : Type) : HandleTable V where
  Table := List (Handle × V) × List Handle
  new := ([],[])
  clear t := ([],t.2)
  add t v :=
    let h := t.2.foldr max 0 + 1
    (h,t.1 ++ [(h,v)],h :: t.2)
  find t h := t.1.lookup h
  mapFollowing t h f := (mapAfter h f t.1,t.2)
  erase t h := (eraseHandle h t.1,t.2)
  entries t := t.1
  issued t := t.2
  entries_new := rfl
  entries_clear _ := rfl
  issued_clear _ := rfl
  add_fresh t _ hm := by
    have hle : ∀ l : List Handle, ∀ h ∈ l, h ≤ l.foldr max 0 := by
      intro l
      induction l with
      | nil => simp
      | cons a l ih =>
        intro h hh
        rcases List.mem_cons.mp hh with rfl | hh
        · exact Nat.le_max_left _ _
        · exact Nat.le_trans (ih h hh) (Nat.le_max_right _ _)
    exact Nat.not_succ_le_self _ (hle t.2 _ hm)
  entries_add _ _ := rfl
  issued_add _ _ := rfl
  find_eq _ _ := rfl
  entries_mapFollowing _ _ _ := rfl
  issued_mapFollowing _ _ _ := rfl
  entries_erase _ _ := rfl
  issued_erase _ _ := rfl

end HandleTable
