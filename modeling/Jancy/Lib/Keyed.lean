import Mathlib.Data.List.Nodup

/-! A cache whose entries are found by a key: an entry is made at the first request for its key, and
every later request for the key gets that one. -/
namespace Keyed

variable {R K E : Type*}

/-- Where the entry of a key stands. -/
def find [DecidableEq K] (entries : List (K × E)) (k : K) : Option ℕ :=
  entries.findIdx? fun entry => decide (entry.1 = k)

theorem find_some [DecidableEq K] {entries : List (K × E)} {k : K} {i : ℕ} (h : find entries k = some i) :
    ∃ e, entries[i]? = some (k,e) := by
  obtain ⟨hi,hkey,-⟩ := List.findIdx?_eq_some_iff_getElem.mp h
  refine ⟨entries[i].2,?_⟩
  rw [List.getElem?_eq_getElem hi,← of_decide_eq_true hkey]

theorem find_none [DecidableEq K] {entries : List (K × E)} {k : K} (h : find entries k = none) :
    k ∉ entries.map Prod.fst := by
  intro hmem
  obtain ⟨entry,hentry,rfl⟩ := List.mem_map.mp hmem
  have hfalse := List.findIdx?_eq_none_iff.mp h entry hentry
  exact absurd rfl (of_decide_eq_false hfalse)

/-- What has been asked for, as `Logged` says, and what stands in the cache. -/
structure Consistent (key : R → K) (Made : R → E → Prop) (entries : List (K × E))
    (Logged : R → ℕ → Prop) : Prop where
  nodup : (entries.map Prod.fst).Nodup
  logged : ∀ r i, Logged r i → ∃ e, entries[i]? = some (key r,e)
  made : ∀ i k e, entries[i]? = some (k,e) → ∃ r, Logged r i ∧ key r = k ∧ Made r e

variable {key : R → K} {Made Made' : R → E → Prop} {entries : List (K × E)}
  {Logged Logged' : R → ℕ → Prop}

theorem Consistent.initial : Consistent key Made [] (fun _ _ => False) where
  nodup := List.nodup_nil
  logged := fun _ _ h => h.elim
  made := nofun

section

variable (h : Consistent key Made entries Logged)

include h

theorem Consistent.mono (hmade : ∀ r e, Made r e → Made' r e) :
    Consistent key Made' entries Logged where
  nodup := h.nodup
  logged := h.logged
  made := fun i k e he =>
    let ⟨r,hr,hkey,hm⟩ := h.made i k e he
    ⟨r,hr,hkey,hmade r e hm⟩

theorem Consistent.congr (hlogged : ∀ r i, Logged' r i ↔ Logged r i) :
    Consistent key Made entries Logged' where
  nodup := h.nodup
  logged := fun r i hr => h.logged r i ((hlogged r i).mp hr)
  made := fun i k e he =>
    let ⟨r,hr,hkey,hm⟩ := h.made i k e he
    ⟨r,(hlogged r i).mpr hr,hkey,hm⟩

theorem Consistent.key_eq {r r' : R} {i : ℕ} (hr : Logged r i) (hr' : Logged r' i) :
    key r = key r' := by
  obtain ⟨e,he⟩ := h.logged r i hr
  obtain ⟨e',he'⟩ := h.logged r' i hr'
  exact (Prod.mk.inj (Option.some.inj (he.symm.trans he'))).1

theorem Consistent.idx_eq {r r' : R} {i i' : ℕ} (hr : Logged r i) (hr' : Logged r' i')
    (hkey : key r = key r') : i = i' := by
  obtain ⟨e,he⟩ := h.logged r i hr
  obtain ⟨e',he'⟩ := h.logged r' i' hr'
  have hi : (entries.map Prod.fst)[i]? = some (key r) := by rw [List.getElem?_map,he]; rfl
  have hi' : (entries.map Prod.fst)[i']? = some (key r) := by
    rw [List.getElem?_map,he',hkey]
    rfl
  obtain ⟨hlt,-⟩ := List.getElem?_eq_some_iff.mp hi
  exact (List.getElem?_inj hlt h.nodup).mp (hi.trans hi'.symm)

theorem Consistent.hit [DecidableEq K] {r : R} {i : ℕ} (hfind : find entries (key r) = some i) :
    Consistent key Made entries fun r' i' => Logged r' i' ∨ r' = r ∧ i' = i where
  nodup := h.nodup
  logged := by
    rintro r' i' (hr' | ⟨rfl,rfl⟩)
    · exact h.logged r' i' hr'
    · exact find_some hfind
  made := fun i k e he =>
    let ⟨r,hr,hkey,hm⟩ := h.made i k e he
    ⟨r,Or.inl hr,hkey,hm⟩

theorem Consistent.miss [DecidableEq K] {r : R} {e : E} (hfind : find entries (key r) = none)
    (hmade : Made r e) :
    Consistent key Made (entries ++ [(key r,e)]) fun r' i' =>
      Logged r' i' ∨ r' = r ∧ i' = entries.length where
  nodup := by
    rw [List.map_append]
    refine List.nodup_append.mpr ⟨h.nodup,List.nodup_singleton _,?_⟩
    intro k hk k' hk' heq
    obtain rfl : k = key r := heq.trans (List.mem_singleton.mp hk')
    exact find_none hfind hk
  logged := by
    rintro r' i' (hr' | ⟨rfl,rfl⟩)
    · obtain ⟨e',he'⟩ := h.logged r' i' hr'
      exact ⟨e',by rw [List.getElem?_append_left (List.getElem?_eq_some_iff.mp he').1,he']⟩
    · exact ⟨e,by rw [List.getElem?_append_right (Nat.le_refl _),Nat.sub_self]; rfl⟩
  made := by
    intro i k e' he'
    rcases Nat.lt_or_ge i entries.length with hlt | hge
    · rw [List.getElem?_append_left hlt] at he'
      obtain ⟨r',hr',hkey,hm⟩ := h.made i k e' he'
      exact ⟨r',Or.inl hr',hkey,hm⟩
    · rw [List.getElem?_append_right hge,List.getElem?_singleton] at he'
      split_ifs at he' with hi
      cases he'
      exact ⟨r,Or.inr ⟨rfl,by omega⟩,rfl,hmade⟩

end

end Keyed
