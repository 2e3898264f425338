import Mathlib.Data.List.Nodup

/-! Objects that are made for keys on request and stay when their keys are gone: a map holds the
object of each key that is in force. -/

/-- All objects ever made, and the map from keys to them. -/
structure Registry (K W : Type*) where
  objects : ℕ → W
  count : ℕ
  map : List (K × ℕ)

namespace Registry

variable {K W : Type*}

def empty (blank : W) : Registry K W :=
  ⟨fun _ => blank,0,[]⟩

def find [DecidableEq K] (r : Registry K W) (k : K) : Option ℕ :=
  (r.map.find? fun entry => decide (entry.1 = k)).map Prod.snd

/-- A new object for a key. -/
def add (r : Registry K W) (k : K) (w : W) : Registry K W where
  objects := Function.update r.objects r.count w
  count := r.count + 1
  map := r.map ++ [(k,r.count)]

def modify (r : Registry K W) (w : ℕ) (f : W → W) : Registry K W :=
  { r with objects := Function.update r.objects w (f (r.objects w)) }

/-- Objects are changed one after another. -/
def changeAll (change : W → W) (ws : List ℕ) (objects : ℕ → W) : ℕ → W :=
  ws.foldl (fun objects w => Function.update objects w (change (objects w))) objects

/-- The map goes, and all its objects are changed, after some others. -/
def clear (r : Registry K W) (change : W → W) (others : List ℕ) : Registry K W :=
  { r with
    objects := changeAll change (others ++ r.map.map Prod.snd) r.objects
    map := [] }

theorem changeAll_apply {change : W → W} (hidem : ∀ w, change (change w) = change w) (ws : List ℕ)
    (objects : ℕ → W) (w : ℕ) :
    changeAll change ws objects w = if w ∈ ws then change (objects w) else objects w := by
  induction ws generalizing objects with
  | nil => rfl
  | cons v ws ih =>
    refine (ih (Function.update objects v (change (objects v)))).trans ?_
    simp only [Function.update_apply,List.mem_cons]
    split_ifs with hmem heq hor hor heq hor hor
    · rw [hidem,heq]
    · exact absurd (Or.inr hmem) hor
    · rfl
    · exact absurd (Or.inr hmem) hor
    · rw [heq]
    · exact absurd (Or.inl heq) hor
    · exact absurd hor (not_or.mpr ⟨heq,hmem⟩)
    · rfl

variable {k : K} {w : ℕ}

theorem mem_of_find [DecidableEq K] {r : Registry K W} (h : r.find k = some w) :
    (k,w) ∈ r.map := by
  obtain ⟨⟨k',w'⟩,hfind,rfl⟩ := Option.map_eq_some_iff.mp h
  have hkey := List.find?_some hfind
  obtain rfl : k' = k := of_decide_eq_true hkey
  exact List.mem_of_find?_eq_some hfind

theorem notMem_of_find [DecidableEq K] {r : Registry K W} (h : r.find k = none) :
    k ∉ r.map.map Prod.fst := by
  intro hmem
  obtain ⟨entry,hentry,rfl⟩ := List.mem_map.mp hmem
  have hfalse := List.find?_eq_none.mp (Option.map_eq_none_iff.mp h) entry hentry
  exact hfalse (decide_eq_true rfl)

/-- The map holds exactly the objects of the keys that are in force, and each is what it should be. -/
structure Inv (key : W → Option K) (InForce : K → Prop) (Good : K → W → Prop)
    (r : Registry K W) : Prop where
  nodup : (r.map.map Prod.fst).Nodup
  mapped : ∀ k w, (k,w) ∈ r.map →
    w < r.count ∧ key (r.objects w) = some k ∧ InForce k ∧ Good k (r.objects w)
  listed : ∀ w k, w < r.count → key (r.objects w) = some k → InForce k → (k,w) ∈ r.map

variable {key : W → Option K} {InForce InForce' : K → Prop} {Good Good' : K → W → Prop}
  {r r' : Registry K W}

theorem empty_inv (blank : W) : (empty blank : Registry K W).Inv key InForce Good :=
  ⟨List.nodup_nil,fun _ _ h => absurd h List.not_mem_nil,fun _ _ h => absurd h (Nat.not_lt_zero _)⟩

section

variable (h : r.Inv key InForce Good)

include h

theorem Inv.unique (hk : InForce k) {w w' : ℕ} (hw : w < r.count) (hw' : w' < r.count)
    (hkey : key (r.objects w) = some k) (hkey' : key (r.objects w') = some k) :
    w = w' :=
  (Prod.mk.inj (List.inj_on_of_nodup_map h.nodup (h.listed w k hw hkey hk)
    (h.listed w' k hw' hkey' hk) rfl)).2

theorem Inv.good (hk : InForce k) (hw : w < r.count) (hkey : key (r.objects w) = some k) :
    Good k (r.objects w) :=
  (h.mapped k w (h.listed w k hw hkey hk)).2.2.2

theorem Inv.mono (hgood : ∀ k w, Good k w → Good' k w) :
    r.Inv key InForce Good' :=
  ⟨h.nodup,fun k w hmem =>
    let ⟨hw,hkey,hk,hg⟩ := h.mapped k w hmem
    ⟨hw,hkey,hk,hgood k _ hg⟩,h.listed⟩

theorem Inv.add [DecidableEq K] {w : W} (hfind : r.find k = none) (hk : InForce k)
    (hkey : key w = some k) (hgood : Good k w) :
    (r.add k w).Inv key InForce Good := by
  have hne : ∀ v, v < r.count → v ≠ r.count := fun v hv heq => absurd hv (heq ▸ Nat.lt_irrefl _)
  refine ⟨?_,fun k' v hmem => ?_,fun v k' hv hkey' hk' => ?_⟩
  · show ((r.map ++ [(k,r.count)]).map Prod.fst).Nodup
    rw [List.map_append]
    refine List.nodup_append.mpr ⟨h.nodup,List.nodup_singleton _,?_⟩
    intro k' hk' k'' hk'' heq
    obtain rfl : k' = k := heq.trans (List.mem_singleton.mp hk'')
    exact notMem_of_find hfind hk'
  · show v < r.count + 1 ∧ key (Function.update r.objects r.count w v) = some k' ∧ InForce k' ∧
      Good k' (Function.update r.objects r.count w v)
    cases List.mem_append.mp hmem with
    | inl hmem =>
      obtain ⟨hv,hkey',hk',hgood'⟩ := h.mapped k' v hmem
      rw [Function.update_of_ne (hne v hv)]
      exact ⟨Nat.lt_succ_of_lt hv,hkey',hk',hgood'⟩
    | inr hmem =>
      cases List.mem_singleton.mp hmem
      rw [Function.update_self]
      exact ⟨Nat.lt_succ_self _,hkey,hk,hgood⟩
  · change key (Function.update r.objects r.count w v) = some k' at hkey'
    by_cases hvc : v = r.count
    · rw [hvc,Function.update_self,hkey] at hkey'
      cases hkey'
      rw [hvc]
      exact List.mem_append_right _ List.mem_cons_self
    · rw [Function.update_of_ne hvc] at hkey'
      have hv' : v < r.count := Nat.lt_of_le_of_ne (Nat.le_of_lt_succ hv) hvc
      exact List.mem_append_left _ (h.listed v k' hv' hkey' hk')

end

theorem inv_of_map_nil (hmap : r.map = [])
    (hnot : ∀ w k, w < r.count → key (r.objects w) = some k → ¬InForce k) :
    r.Inv key InForce Good := by
  refine ⟨?_,fun k w hmem => ?_,fun w k hw hkey hk => absurd hk (hnot w k hw hkey)⟩
  · rw [hmap]
    exact List.nodup_nil
  · rw [hmap] at hmem
    exact absurd hmem List.not_mem_nil

def Keys (key : W → Option K) (Q : K → Prop) (r : Registry K W) : Prop :=
  ∀ w k, w < r.count → key (r.objects w) = some k → Q k

theorem Keys.add {Q : K → Prop} (h : r.Keys key Q) {w : W} (hkey : key w = some k) (hk : Q k) :
    (r.add k w).Keys key Q := by
  intro v k' hv hkey'
  change key (Function.update r.objects r.count w v) = some k' at hkey'
  by_cases hvc : v = r.count
  · rw [hvc,Function.update_self,hkey] at hkey'
    cases hkey'
    exact hk
  · rw [Function.update_of_ne hvc] at hkey'
    exact h v k' (Nat.lt_of_le_of_ne (Nat.le_of_lt_succ hv) hvc) hkey'

theorem Inv.clear_key (h : r.Inv key InForce Good) (hkeys : r.Keys key InForce) (change : W → W)
    (hidem : ∀ w, change (change w) = change w) (hnone : ∀ w, key (change w) = none)
    (others : List ℕ) (hw : w < r.count) :
    key ((r.clear change others).objects w) = none := by
  simp only [clear,changeAll_apply hidem]
  split_ifs with hmem
  · exact hnone _
  · cases hkey : key (r.objects w) with
    | none => rfl
    | some k =>
      have hlisted := h.listed w k hw hkey (hkeys w k hw hkey)
      exact absurd (List.mem_append_right _ (List.mem_map_of_mem hlisted)) hmem

theorem clear_key_eq (change : W → W) (hidem : ∀ w, change (change w) = change w)
    (hsame : ∀ w, key (change w) = key w) (others : List ℕ) (w : ℕ) :
    key ((r.clear change others).objects w) = key (r.objects w) := by
  simp only [clear,changeAll_apply hidem]
  split_ifs
  · exact hsame _
  · rfl

theorem Inv.modify (h : r.Inv key InForce Good) {f : W → W}
    (hkey : key (f (r.objects w)) = key (r.objects w))
    (hgood : ∀ k, Good k (r.objects w) → Good k (f (r.objects w))) :
    (r.modify w f).Inv key InForce Good := by
  have hkeys : ∀ v, key ((r.modify w f).objects v) = key (r.objects v) := by
    intro v
    by_cases hv : v = w
    · simp only [Registry.modify,hv,Function.update_self]
      exact hkey
    · simp only [Registry.modify,Function.update_of_ne hv]
  refine ⟨h.nodup,fun k v hmem => ?_,fun v k hv hkey' hk => h.listed v k hv (hkeys v ▸ hkey') hk⟩
  obtain ⟨hv,hkey',hk,hgood'⟩ := h.mapped k v hmem
  refine ⟨hv,(hkeys v).trans hkey',hk,?_⟩
  by_cases hvw : v = w
  · subst hvw
    simp only [Registry.modify,Function.update_self]
    exact hgood k hgood'
  · simp only [Registry.modify,Function.update_of_ne hvw]
    exact hgood'

/-- Objects are made, and none is gone or gets another key. -/
structure Extends (key : W → Option K) (r r' : Registry K W) : Prop where
  count : r.count ≤ r'.count
  key : ∀ w, w < r.count → key (r'.objects w) = key (r.objects w)

theorem Extends.refl (key : W → Option K) (r : Registry K W) : Extends key r r :=
  ⟨Nat.le_refl _,fun _ _ => rfl⟩

theorem Extends.trans {r'' : Registry K W} (h : Extends key r r') (h' : Extends key r' r'') :
    Extends key r r'' :=
  ⟨Nat.le_trans h.count h'.count,
    fun w hw => (h'.key w (Nat.lt_of_lt_of_le hw h.count)).trans (h.key w hw)⟩

theorem extends_add (k : K) (w : W) : Extends key r (r.add k w) :=
  ⟨Nat.le_succ _,fun v hv => by
    simp only [Registry.add]
    rw [Function.update_of_ne (Nat.ne_of_lt hv)]⟩

theorem extends_modify {f : W → W} (hkey : key (f (r.objects w)) = key (r.objects w)) :
    Extends key r (r.modify w f) :=
  ⟨Nat.le_refl _,fun v _ => by
    by_cases hv : v = w
    · simp only [Registry.modify,hv,Function.update_self]
      exact hkey
    · simp only [Registry.modify,Function.update_of_ne hv]⟩

def Has (key : W → Option K) (r : Registry K W) (w : ℕ) (k : K) : Prop :=
  w < r.count ∧ key (r.objects w) = some k

theorem Has.extends (h : Has key r w k) (hext : Extends key r r') :
    Has key r' w k :=
  ⟨Nat.lt_of_lt_of_le h.1 hext.count,(hext.key w h.1).trans h.2⟩

theorem has_add {w : W} (hkey : key w = some k) : Has key (r.add k w) r.count k :=
  ⟨Nat.lt_succ_self _,by
    simp only [Registry.add]
    rw [Function.update_self]
    exact hkey⟩

/-- Objects with keys, in their order. -/
def Shows (key : W → Option K) (r : Registry K W) (ws : List ℕ) (ks : List K) : Prop :=
  List.Forall₂ (Has key r) ws ks

theorem Shows.extends {ws : List ℕ} {ks : List K} (h : Shows key r ws ks)
    (hext : Extends key r r') : Shows key r' ws ks :=
  List.Forall₂.imp (fun _ _ hhas => hhas.extends hext) h

theorem Shows.getElem? {ws : List ℕ} {ks : List K} (h : Shows key r ws ks) (i : ℕ) :
    Option.Rel (Has key r) ws[i]? ks[i]? := by
  induction h generalizing i with
  | nil => exact .none
  | cons hhas _ ih =>
    cases i with
    | zero => exact .some hhas
    | succ i => exact ih i

end Registry
