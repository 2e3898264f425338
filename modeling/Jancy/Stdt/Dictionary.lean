import Mathlib.Data.List.Nodup

/-! What the associative containers are for: dictionaries whose entries are held by a program. -/
namespace Jancy.Stdt

abbrev EntryId := ℕ

abbrev TableId := ℕ

structure Record (K V : Type) where
  entry : EntryId
  key : K
  value : V

/-- Which keys are the same, and in front of which keys a new one goes. -/
structure Discipline (K : Type) where
  same : K → K → Bool
  before : K → K → Bool

/-- All dictionaries of a program, in the order of iteration. -/
@[ext]
structure World (K V : Type) where
  dict : TableId → List (Record K V)
  discipline : TableId → Discipline K

/-- `store` is an assignment through an iterator. -/
inductive DictCall (K V : Type) where
  | visit (t : TableId) (key : K)
  | find (t : TableId) (key : K)
  | store (e : EntryId) (value : V)
  | remove (t : TableId) (e : EntryId)
  | removeKey (t : TableId) (key : K)
  | clear (t : TableId)
  | takeOver (t src : TableId)

inductive DictResult where
  | void
  | entry (e : Option EntryId)
  | bool (b : Bool)
  | thrown
  deriving DecidableEq, Repr

namespace World

variable {K V : Type} (w : World K V)

def setDict (t : TableId) (d : List (Record K V)) : World K V :=
  { w with dict := Function.update w.dict t d }

def find (t : TableId) (key : K) : Option EntryId :=
  ((w.dict t).find? fun r => (w.discipline t).same key r.key).map Record.entry

/-- A new record goes in front of the first one that it comes before. -/
def put (t : TableId) (r : Record K V) : World K V :=
  w.setDict t ((w.dict t).takeWhile (fun x => !(w.discipline t).before r.key x.key) ++
    r :: (w.dict t).dropWhile (fun x => !(w.discipline t).before r.key x.key))

def erase (t : TableId) (e : EntryId) : World K V :=
  w.setDict t ((w.dict t).filter fun r => r.entry != e)

/-- A new entry, if one is needed, is `fresh`. Taking over itself leaves a dictionary as it is, and
is an error where assertions are compiled. -/
def call [Inhabited V] (asserts : Bool) (fresh : EntryId) : DictCall K V → World K V × DictResult
  | .visit t key =>
      match w.find t key with
      | some e => (w,.entry (some e))
      | none => (w.put t ⟨fresh,key,default⟩,.entry (some fresh))
  | .find t key => (w,.entry (w.find t key))
  | .store e value =>
      ({ w with dict := fun t => (w.dict t).map fun r =>
          if r.entry = e then { r with value := value } else r },.void)
  | .remove t e => (w.erase t e,.void)
  | .removeKey t key =>
      match w.find t key with
      | none => (w,.bool false)
      | some e => (w.erase t e,.bool true)
  | .clear t => (w.setDict t [],.void)
  | .takeOver t src =>
      if src = t then (w,if asserts then .thrown else .void)
      else
        ({ dict := Function.update (Function.update w.dict t (w.dict src)) src []
           discipline := Function.update w.discipline t (w.discipline src) },.void)

end World

/-- What `src` has goes to `t`, and `src` is left with `none`. -/
def transferred {α : Type} (f : TableId → α) (t src : TableId) (none : α) : TableId → α :=
  Function.update (Function.update f t (f src)) src none

theorem transferred_src {α : Type} (f : TableId → α) (t src : TableId) (x : α) :
    transferred f t src x src = x := Function.update_self _ _ _

theorem transferred_dst {α : Type} (f : TableId → α) {t src : TableId} (hne : src ≠ t) (x : α) :
    transferred f t src x t = f src := by
  rw [transferred,Function.update_of_ne hne.symm,Function.update_self]

theorem transferred_other {α : Type} (f : TableId → α) {t src t' : TableId} (hsrc : t' ≠ src)
    (ht : t' ≠ t) (x : α) : transferred f t src x t' = f t' := by
  rw [transferred,Function.update_of_ne hsrc,Function.update_of_ne ht]

namespace World

variable {K V : Type}

section Entries

/-- The world of a program whose dictionaries have these entries. -/
def of (es : TableId → List EntryId) (key : EntryId → K) (value : EntryId → V)
    (discipline : TableId → Discipline K) : World K V where
  dict t := (es t).map fun e => ⟨e,key e,value e⟩
  discipline := discipline

variable {es : TableId → List EntryId} {key key' : EntryId → K} {value value' : EntryId → V}
  {discipline : TableId → Discipline K} {t : TableId} {e : EntryId}

theorem of_congr (hkey : ∀ t, ∀ e ∈ es t, key' e = key e)
    (hvalue : ∀ t, ∀ e ∈ es t, value' e = value e) :
    of es key' value' discipline = of es key value discipline := by
  ext1
  · funext t
    apply List.map_congr_left
    intro e he
    rw [hkey t e he,hvalue t e he]
  · rfl

theorem of_entries (t : TableId) :
    ((of es key value discipline).dict t).map Record.entry = es t := by
  rw [of,List.map_map]
  exact List.map_id _

theorem of_find (k : K) : (of es key value discipline).find t k =
    (es t).find? fun e => (discipline t).same k (key e) := by
  rw [find,of,List.find?_map,Option.map_map]
  exact Option.map_id'

theorem of_setDict (xs : List EntryId) :
    (of es key value discipline).setDict t (xs.map fun e => ⟨e,key e,value e⟩) =
      of (Function.update es t xs) key value discipline := by
  ext1
  · funext t'
    by_cases ht : t' = t
    · subst ht
      simp [setDict,of]
    · simp [setDict,of,ht]
  · rfl

theorem of_erase (hnodup : (es t).Nodup) : (of es key value discipline).erase t e =
    of (Function.update es t ((es t).erase e)) key value discipline := by
  rw [hnodup.erase_eq_filter,← of_setDict,erase,of,List.filter_map]
  rfl

theorem of_clear : (of es key value discipline).setDict t [] =
    of (Function.update es t []) key value discipline := of_setDict []

theorem of_takeOver [Inhabited V] {asserts : Bool} {fresh : EntryId} {src : TableId}
    (hne : src ≠ t) :
    (of es key value discipline).call asserts fresh (.takeOver t src) =
      (of (transferred es t src []) key value
        (Function.update discipline t (discipline src)),.void) := by
  rw [call,if_neg hne]
  refine Prod.ext ?_ rfl
  ext1
  · funext t'
    by_cases h₁ : t' = src
    · subst h₁
      simp [of,transferred_src]
    · by_cases h₂ : t' = t
      · subst h₂
        simp [of,transferred_dst es hne,h₁]
      · simp [of,transferred_other es h₁ h₂,h₁,h₂]
  · rfl

theorem of_store (v : V) :
    { of es key value discipline with
      dict := fun t => ((of es key value discipline).dict t).map fun r =>
        if r.entry = e then { r with value := v } else r } =
      of es key (Function.update value e v) discipline := by
  ext1
  · funext t
    dsimp only
    rw [of,of,List.map_map]
    apply List.map_congr_left
    intro e' _
    by_cases heq : e' = e
    · subst heq
      simp
    · simp [heq]
  · rfl

theorem of_put {xs ys : List EntryId} (hcut : es t = xs ++ ys) {k : K} (v : V)
    (hxs : ∀ e ∈ xs, (discipline t).before k (key e) = false)
    (hys : ∀ e ∈ ys, (discipline t).before k (key e) = true) (hfresh : ∀ t, e ∉ es t) :
    (of es key value discipline).put t ⟨e,k,v⟩ =
      of (Function.update es t (xs ++ e :: ys)) (Function.update key e k)
        (Function.update value e v) discipline := by
  have hne : ∀ t, ∀ e' ∈ es t, e' ≠ e := fun t e' he' heq => hfresh t (heq ▸ he')
  have hold : of es key value discipline =
      of es (Function.update key e k) (Function.update value e v) discipline := by
    apply of_congr
    · exact fun t e' he' => (Function.update_of_ne (hne t e' he') _ _).symm
    · exact fun t e' he' => (Function.update_of_ne (hne t e' he') _ _).symm
  have hkey : ∀ e' ∈ xs ++ ys, Function.update key e k e' = key e' :=
    fun e' he' => Function.update_of_ne (hne t e' (hcut ▸ he')) _ _
  rw [hold,← of_setDict,put]
  congr 1
  dsimp only [of]
  rw [hcut,List.map_append,List.takeWhile_append_of_pos,List.dropWhile_append_of_pos,
    List.append_assoc,List.map_append]
  · congr 1
    cases ys with
    | nil => simp
    | cons y ys =>
      have hy : (discipline t).before k (Function.update key e k y) = true := by
        rw [hkey y (by simp)]
        exact hys y List.mem_cons_self
      simp [hy]
  all_goals
    intro r hr
    obtain ⟨e',he',rfl⟩ := List.mem_map.mp hr
    dsimp only
    rw [hkey e' (List.mem_append_left ys he'),hxs e' he']
    rfl

end Entries

end World

end Jancy.Stdt
