import Jancy.Lib.LinkedTrees
import Mathlib.Algebra.Group.Nat.Defs

/-! Red-black trees: shapes with as many black nodes on every way down and no red node below a red
one. -/
namespace RedBlack

open LinkedTrees

inductive Color where
  | black
  | red
  deriving DecidableEq, Repr

variable {α : Type*} {t near far : Shape α Color} {p : Path α Color} {s : Side} {a : α}
  {c : Color} {n : ℕ}

/-- A tree with a root of this color and so many black nodes on every way down. -/
inductive Balanced : Shape α Color → Color → ℕ → Prop where
  | leaf : Balanced .leaf .black 0
  | red {l r : Shape α Color} {a : α} {n : ℕ} : Balanced l .black n → Balanced r .black n →
      Balanced (.node l a .red r) .red n
  | black {l r : Shape α Color} {a : α} {cl cr : Color} {n : ℕ} : Balanced l cl n →
      Balanced r cr n → Balanced (.node l a .black r) .black (n + 1)

theorem balanced_red : Balanced (.facing s near a .red far) c n ↔
    c = .red ∧ Balanced near .black n ∧ Balanced far .black n := by
  constructor
  · intro h
    cases s with
    | left =>
      cases h with
      | red hl hr => exact ⟨rfl,hl,hr⟩
    | right =>
      cases h with
      | red hl hr => exact ⟨rfl,hr,hl⟩
  · rintro ⟨rfl,hnear,hfar⟩
    cases s with
    | left => exact .red hnear hfar
    | right => exact .red hfar hnear

theorem balanced_black : Balanced (.facing s near a .black far) c n ↔
    c = .black ∧ ∃ m, n = m + 1 ∧ (∃ c', Balanced near c' m) ∧ ∃ c', Balanced far c' m := by
  constructor
  · intro h
    cases s with
    | left =>
      cases h with
      | black hl hr => exact ⟨rfl,_,rfl,⟨_,hl⟩,⟨_,hr⟩⟩
    | right =>
      cases h with
      | black hl hr => exact ⟨rfl,_,rfl,⟨_,hr⟩,⟨_,hl⟩⟩
  · rintro ⟨rfl,m,rfl,⟨c₁,hnear⟩,⟨c₂,hfar⟩⟩
    cases s with
    | left => exact .black hnear hfar
    | right => exact .black hfar hnear

theorem Balanced.color_eq {d : Color} (hb : Balanced (.facing s near a d far) c n) : c = d := by
  cases d with
  | red => exact (balanced_red.mp hb).1
  | black => exact (balanced_black.mp hb).1

theorem Balanced.rename {b : α} {d : Color} (hb : Balanced (.facing s near a d far) c n) :
    Balanced (.facing s near b d far) c n := by
  cases d with
  | red => exact balanced_red.mpr (balanced_red.mp hb)
  | black => exact balanced_black.mpr (balanced_black.mp hb)

/-- A hole for a tree with a root of this color and so many black nodes on every way down. -/
def Fits : Path α Color → Color → ℕ → Prop
  | [],c,_ => c = .black
  | f :: p,c,n =>
      match f.c with
      | .red => c = .black ∧ Balanced f.sibling .black n ∧ Fits p .red n
      | .black => (∃ c', Balanced f.sibling c' n) ∧ Fits p .black (n + 1)

theorem Fits.plug (hf : Fits p c n) (ht : Balanced t c n) :
    ∃ m, Balanced (Path.plug p t) .black m := by
  induction p generalizing t c n with
  | nil =>
    obtain rfl : c = .black := hf
    exact ⟨n,ht⟩
  | cons f p ih =>
    rcases f with ⟨s,a,fc,sib⟩
    cases fc with
    | red =>
      obtain ⟨rfl,hsib,hrest⟩ := hf
      exact ih hrest (balanced_red.mpr ⟨rfl,ht,hsib⟩)
    | black =>
      obtain ⟨hsib,hrest⟩ := hf
      exact ih hrest (balanced_black.mpr ⟨rfl,n,rfl,⟨c,ht⟩,hsib⟩)

theorem fits_of_plug (hb : Balanced (Path.plug p t) .black n) :
    ∃ c m, Fits p c m ∧ Balanced t c m := by
  induction p generalizing t with
  | nil => exact ⟨.black,n,rfl,hb⟩
  | cons f p ih =>
    obtain ⟨c,m,hfits,hfill⟩ := ih hb
    rcases f with ⟨s,a,fc,sib⟩
    cases fc with
    | red =>
      obtain ⟨rfl,ht,hsib⟩ := balanced_red.mp hfill
      exact ⟨.black,m,⟨rfl,hsib,hfits⟩,ht⟩
    | black =>
      obtain ⟨rfl,k,rfl,⟨c',ht⟩,hsib⟩ := balanced_black.mp hfill
      exact ⟨c',k,⟨hsib,hfits⟩,ht⟩

/-- How many nodes the longest way down has. -/
def height : Shape α Color → ℕ
  | .leaf => 0
  | .node l _ _ r => max (height l) (height r) + 1

theorem Balanced.height_le (hb : Balanced t c n) :
    height t ≤ 2 * n + if c = .red then 1 else 0 := by
  induction hb with
  | leaf => exact Nat.zero_le _
  | red _ _ ihl ihr =>
    simp only [height,reduceCtorEq,if_true,if_false] at *
    omega
  | black _ _ ihl ihr =>
    simp only [height,reduceCtorEq,if_false]
    split_ifs at ihl ihr <;> omega

theorem Balanced.two_pow_le (hb : Balanced t c n) : 2 ^ n ≤ t.ids.length + 1 := by
  induction hb with
  | leaf => exact Nat.le_refl _
  | red _ _ ihl ihr =>
    simp only [Shape.ids,List.length_append,List.length_cons]
    omega
  | black _ _ ihl ihr =>
    simp only [Shape.ids,List.length_append,List.length_cons,Nat.pow_succ]
    omega

theorem Balanced.height_le_log (hb : Balanced t .black n) :
    height t ≤ 2 * Nat.log2 (t.ids.length + 1) := by
  have hlog : n ≤ Nat.log2 (t.ids.length + 1) :=
    (Nat.le_log2 (Nat.succ_ne_zero _)).mpr hb.two_pow_le
  have hheight := hb.height_le
  rw [if_neg nofun] at hheight
  omega

theorem height_le_length (t : Shape α Color) : height t ≤ t.ids.length := by
  induction t with
  | leaf => exact Nat.le_refl _
  | node l a c r ihl ihr =>
    simp only [height,Shape.ids,List.length_append,List.length_cons]
    omega

theorem Fits.rename {q : Path α Color} {b : α} {d : Color} {sib : Shape α Color}
    (hf : Fits (p ++ ⟨s,a,d,sib⟩ :: q) c n) : Fits (p ++ ⟨s,b,d,sib⟩ :: q) c n := by
  induction p generalizing c n with
  | nil => exact hf
  | cons f p ih =>
    rcases f with ⟨s',a',fc,sib'⟩
    cases fc with
    | red => exact ⟨hf.1,hf.2.1,ih hf.2.2⟩
    | black => exact ⟨hf.1,ih hf.2⟩

theorem Fits.of_red (hf : Fits p .red n) : Fits p .black n := by
  cases p with
  | nil => cases hf
  | cons f p =>
    rcases f with ⟨s,a,fc,sib⟩
    cases fc with
    | red => cases hf.1
    | black => exact hf

end RedBlack
