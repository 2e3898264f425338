import Jancy.Stdt.RbTreeShapes

/-! The tree is a red-black tree again after `rebalanceOnRemove`. -/
namespace Jancy.Stdt.RbNodes

open LinkedTrees RedBlack TreeNodes

variable {h h' : RbNodes} {t : TableId} {path : Path EntryId RbTreeColor}
  {d u near far : Shape EntryId RbTreeColor} {s : Side} {x y p w : EntryId} {c : RbTreeColor}
  {f : Frame EntryId RbTreeColor} {n fuel : ℕ}

def blacken : Shape EntryId RbTreeColor → Shape EntryId RbTreeColor
  | .leaf => .leaf
  | .node l a _ r => .node l a .black r

/-- A tree with one black node too few on every way down, which a red root could make up for. -/
def Short (d : Shape EntryId RbTreeColor) (n : ℕ) : Prop :=
  Balanced d .black n ∨ ∃ l a r, d = .node l a .red r ∧ Balanced (.node l a .black r) .black (n + 1)

theorem short_of_balanced (hb : Balanced d c n) : Short d n := by
  cases hb with
  | leaf => exact .inl .leaf
  | red hl hr => exact .inr ⟨_,_,_,rfl,.black hl hr⟩
  | black hl hr => exact .inl (.black hl hr)

/-- The loop ends at a node that is made black. -/
def Finishes (u : Shape EntryId RbTreeColor) (x : Option EntryId) : Prop :=
  ∃ path d m, u = Path.plug path d ∧ d.top = x ∧ Balanced (Path.plug path (blacken d)) .black m

theorem Finishes.of_balanced (hb : Balanced u .black n) : Finishes u u.top := by
  refine ⟨[],u,n,rfl,rfl,?_⟩
  cases hb with
  | leaf => exact .leaf
  | black hl hr => exact .black hl hr

section

variable (hh : h.Holds t (Path.plug (f :: path) d))

include hh

theorem top_ne_root : d.top ≠ h.root t := by
  cases hx : d.top with
  | none =>
    rw [hh.root,Path.top_plug,if_neg (List.cons_ne_nil f path)]
    intro heq
    have hmem : f.a ∈ (Path.plug (f :: path) d).ids := Path.mem_ids_plug.mpr (.inl (by simp))
    have hleaf : Path.plug (f :: path) d = .leaf := by
      apply Shape.eq_leaf
      rw [Path.top_plug,if_neg (List.cons_ne_nil f path),← heq]
    rw [hleaf] at hmem
    cases hmem
  | some x => exact (root_ne hh hx).symm

theorem sideOf_hole (hsib : f.sibling ≠ .leaf) :
    sideOf h f.a d.top = f.side := by
  have hview : h.Holds t (Path.plug path (.facing f.side d f.a f.c f.sibling)) := hh
  cases hx : d.top with
  | some x => exact sideOf_eq hview hx
  | none =>
    obtain ⟨-,-,hnear,hfar⟩ := hview.node
    cases hside : f.side with
    | left =>
      rw [hside] at hnear
      rw [sideOf,hnear,hx,if_pos rfl]
    | right =>
      rw [hside] at hfar
      simp only [Side.other] at hfar
      rw [sideOf,hfar,if_neg]
      exact fun heq => hsib (Shape.eq_leaf heq.symm)

/-- The hole stays where it is and the sibling becomes black. -/
theorem blackSibling_reshapes (hfits : Fits (f :: path) .black (n + 1)) :
    ∃ h' f' path' w, blackSibling h f.side t f.a = some (h',w) ∧
      Reshapes h h' t (Path.plug (f :: path) d) (Path.plug (f' :: path') d) ∧
      f'.side = f.side ∧ f'.a = f.a ∧ f'.sibling.top = some w ∧
      Balanced f'.sibling .black (n + 1) ∧ Fits (f' :: path') .black (n + 1) ∧
      (f'.c = .black → path' = path) := by
  rcases f with ⟨s,p,fc,sib⟩
  have hview : h.Holds t (Path.plug path (.facing s d p fc sib)) := hh
  obtain ⟨-,-,-,hw⟩ := hview.node
  have hsib : ∃ cs, Balanced sib cs (n + 1) ∧ (cs = .red → fc = .black) := by
    cases fc with
    | red => exact ⟨.black,hfits.2.1,nofun⟩
    | black =>
      obtain ⟨cs,hcs⟩ := hfits.1
      exact ⟨cs,hcs,fun _ => rfl⟩
  obtain ⟨cs,hcs,hblack⟩ := hsib
  obtain ⟨w,hwtop⟩ : ∃ w, sib.top = some w := by
    cases hcs with
    | red _ _ => exact ⟨_,rfl⟩
    | black _ _ => exact ⟨_,rfl⟩
  obtain ⟨near,cw,far,rfl⟩ := Shape.exists_facing s hwtop
  rw [hwtop] at hw
  have hmark : h.mark w = cw := by
    obtain ⟨-,-,-,-,-,hl⟩ := linked_facing.mp hview.inside
    exact (linked_facing.mp hl).2.1
  cases cw with
  | black =>
    obtain ⟨rfl,-⟩ := balanced_black.mp hcs
    refine ⟨h,⟨s,p,fc,.facing s near w .black far⟩,path,w,?_,.refl hh,rfl,rfl,hwtop,hcs,hfits,
      fun _ => rfl⟩
    simp [blackSibling,hw,hmark]
  | red =>
    obtain ⟨rfl,hnear,hfar⟩ := balanced_red.mp hcs
    obtain rfl : fc = .black := hblack rfl
    have hview₁ : h.Holds t (Path.plug (⟨s.other,p,.black,d⟩ :: path)
        (.facing s near w .red far)) := by
      rw [Path.plug_far]
      exact hh
    have hr₁ := reshapes_setMark hview₁ .black
    rw [Path.plug_far,Path.plug_far] at hr₁
    have hr₂ := reshapes_setMark hr₁.holds .red
    obtain ⟨h₃,hrotate,hr₃⟩ := reshapes_rotate hr₂.holds
    obtain ⟨w',hw'⟩ : ∃ w', near.top = some w' := by
      cases hnear
      exact ⟨_,rfl⟩
    have hchild : h₃.child s.other p = some w' := by
      have hview₃ : h₃.Holds t (Path.plug (⟨s,w,.black,far⟩ :: path)
          (.facing s d p .red near)) := hr₃.holds
      rw [hview₃.node.2.2.2,hw']
    refine ⟨h₃,⟨s,p,.red,near⟩,⟨s,w,.black,far⟩ :: path,w',?_,hr₁.trans (hr₂.trans hr₃),rfl,rfl,
      hw',hnear,⟨rfl,hnear,⟨.black,hfar⟩,hfits.2⟩,nofun⟩
    simp [blackSibling,hw,hmark,hrotate,hchild]

end

variable {N F : Shape EntryId RbTreeColor} {cn cf : RbTreeColor}

theorem redFarChild_reshapes (hh : h.Holds t (Path.plug (f :: path) d))
    (hsib : f.sibling = .facing f.side N w .black F) (hN : Balanced N cn n) (hF : Balanced F cf n)
    (hred : cn = .red ∨ cf = .red) :
    ∃ h' w' N' F' cn', redFarChild h f.side t f.a w = some (h',w') ∧
      Reshapes h h' t (Path.plug (f :: path) d)
        (Path.plug path (.facing f.side d f.a f.c (.facing f.side N' w' .black F'))) ∧
      Balanced N' cn' n ∧ Balanced F' .red n := by
  rcases f with ⟨s,p,fc,sib⟩
  obtain rfl : sib = .facing s N w .black F := hsib
  have hview : h.Holds t (Path.plug (⟨s.other,p,fc,d⟩ :: path) (.facing s N w .black F)) := by
    rw [Path.plug_far]
    exact hh
  obtain ⟨-,-,hnear,hfar⟩ := hview.node
  have hcolor : getColor h (h.child s.other w) = cf := by
    obtain ⟨-,-,-,-,-,hl⟩ := linked_facing.mp hview.inside
    rw [hfar]
    exact getColor_eq hl hF
  cases cf with
  | red =>
    refine ⟨h,w,N,F,cn,?_,.refl hh,hN,hF⟩
    simp [redFarChild,hcolor]
  | black =>
    obtain rfl : cn = .red := hred.resolve_right nofun
    obtain ⟨z,hz⟩ : ∃ z, N.top = some z := by
      cases hN
      exact ⟨_,rfl⟩
    obtain ⟨N₁,cz,N₂,rfl⟩ := Shape.exists_facing s hz
    cases cz with
    | black => cases (balanced_black.mp hN).1
    | red =>
      obtain ⟨-,hN₁,hN₂⟩ := balanced_red.mp hN
      have hview₁ : h.Holds t (Path.plug (⟨s,w,.black,F⟩ :: ⟨s.other,p,fc,d⟩ :: path)
          (.facing s N₁ z .red N₂)) := hview
      have hr₁ := reshapes_setMark hview₁ .black
      have hview₂ : (h.setMark z .black).Holds t (Path.plug (⟨s.other,p,fc,d⟩ :: path)
          (.facing s (.facing s N₁ z .black N₂) w .black F)) := hr₁.holds
      have hr₂ := reshapes_setMark hview₂ .red
      have hstart : Shape.facing s (.facing s N₁ z .black N₂) w .red F =
          .facing s.other F w .red (.facing s.other N₂ z .black N₁) := by
        rw [Shape.facing_other,Shape.facing_other]
      have hend : Shape.facing s.other (.facing s.other F w .red N₂) z .black N₁ =
          .facing s N₁ z .black (.facing s N₂ w .red F) := by
        rw [Shape.facing_other,Shape.facing_other]
      have hview₃ := hr₂.holds
      rw [hstart] at hview₃
      obtain ⟨h₃,hrotate,hr₃⟩ := reshapes_rotate hview₃
      rw [← hstart,hend] at hr₃
      have hr : Reshapes h h₃ t (Path.plug (⟨s.other,p,fc,d⟩ :: path)
          (.facing s (.facing s N₁ z .red N₂) w .black F)) _ := hr₁.trans (hr₂.trans hr₃)
      rw [Path.plug_far,Path.plug_far] at hr
      have hw : h₃.child s.other p = some z := by
        rw [hr.holds.node.2.2.2,Shape.top_facing]
      refine ⟨h₃,z,N₁,.facing s N₂ w .red F,.black,?_,hr,hN₁,balanced_red.mpr ⟨rfl,hN₂,hF⟩⟩
      rw [Shape.top_facing] at hnear
      simp [redFarChild,hcolor,hnear,hrotate,hw]

/-- The rotation gives back the black node that was missing. -/
theorem rotateSibling_reshapes (hh : h.Holds t (Path.plug (f :: path) d))
    (hsib : f.sibling = .facing f.side N w .black F) (hd : Balanced d .black n)
    (hN : Balanced N cn n) (hF : Balanced F cf n) (hred : cn = .red ∨ cf = .red)
    (hfits : Fits path f.c (n + 1 + if f.c = .black then 1 else 0)) :
    ∃ h' u m, rotateSibling h f.side t f.a w = some h' ∧
      Reshapes h h' t (Path.plug (f :: path) d) u ∧ Balanced u .black m ∧ u ≠ .leaf := by
  obtain ⟨h₁,w',N',F',cn',hfar,hr₁,hN',hF'⟩ := redFarChild_reshapes hh hsib hN hF hred
  rcases f with ⟨s,p,fc,sib⟩
  dsimp only at hr₁ hfar hfits ⊢
  obtain ⟨e,he⟩ : ∃ e, F'.top = some e := by
    cases hF'
    exact ⟨_,rfl⟩
  obtain ⟨l,ce,r,rfl⟩ := Shape.exists_facing s he
  cases ce with
  | black => cases (balanced_black.mp hF').1
  | red =>
    obtain ⟨-,hl,hr⟩ := balanced_red.mp hF'
    have hmark : h₁.mark p = fc := hr₁.holds.node.2.1
    have hview₁ : h₁.Holds t (Path.plug (⟨s.other,p,fc,d⟩ :: path)
        (.facing s N' w' .black (.facing s l e .red r))) := by
      rw [Path.plug_far]
      exact hr₁.holds
    have hr₂ := reshapes_setMark hview₁ fc
    rw [Path.plug_far,Path.plug_far] at hr₂
    have hr₃ := reshapes_setMark hr₂.holds .black
    have hchild : h₁.child s.other w' = some e := by
      rw [hview₁.node.2.2.2,Shape.top_facing]
    have hview₃ : ((h₁.setMark w' fc).setMark p .black).Holds t (Path.plug
        (⟨s.other,w',fc,N'⟩ :: ⟨s.other,p,.black,d⟩ :: path) (.facing s l e .red r)) := by
      rw [Path.plug_far,Path.plug_far]
      exact hr₃.holds
    have hr₄ := reshapes_setMark hview₃ .black
    rw [Path.plug_far,Path.plug_far,Path.plug_far,Path.plug_far] at hr₄
    obtain ⟨h₅,hrotate,hr₅⟩ := reshapes_rotate hr₄.holds
    have hreshapes := hr₁.trans (hr₂.trans (hr₃.trans (hr₄.trans hr₅)))
    have hnear : Balanced (.facing s d p .black N') .black (n + 1) :=
      balanced_black.mpr ⟨rfl,n,rfl,⟨.black,hd⟩,⟨cn',hN'⟩⟩
    have hfar' : Balanced (.facing s l e .black r) .black (n + 1) :=
      balanced_black.mpr ⟨rfl,n,rfl,⟨.black,hl⟩,⟨.black,hr⟩⟩
    have hfill : Balanced (.facing s (.facing s d p .black N') w' fc (.facing s l e .black r)) fc
        (n + 1 + if fc = .black then 1 else 0) := by
      cases fc with
      | red => exact balanced_red.mpr ⟨rfl,hnear,hfar'⟩
      | black => exact balanced_black.mpr ⟨rfl,n + 1,rfl,⟨.black,hnear⟩,⟨.black,hfar'⟩⟩
    obtain ⟨m,hm⟩ := hfits.plug hfill
    refine ⟨h₅,_,m,?_,hreshapes,hm,?_⟩
    · simp [rotateSibling,hfar,hmark,hchild,hrotate]
    · intro hleaf
      have hmem : w' ∈ (Path.plug path (Shape.facing s (.facing s d p .black N') w' fc
          (.facing s l e .black r))).ids := Path.mem_ids_plug.mpr (.inr (by simp))
      rw [hleaf] at hmem
      cases hmem

theorem removeLoop_exit {q x : Option EntryId} (hx : x = h.root t ∨ getColor h x = .red) :
    removeLoop t (fuel + 1) h q x = some (h,x) := by
  rw [removeLoop,if_pos hx]

theorem removeLoop_step {h₁ : RbNodes} {x : Option EntryId} (hne : x ≠ h.root t)
    (hcolor : getColor h x = .black) (hw : blackSibling h (sideOf h p x) t p = some (h₁,w)) :
    removeLoop t (fuel + 1) h (some p) x =
      if getColor h₁ (h₁.child .left w) = .black ∧ getColor h₁ (h₁.child .right w) = .black then
        removeLoop t fuel (h₁.setMark w .red) (h₁.parent p) (some p)
      else (rotateSibling h₁ (sideOf h p x) t p w).bind fun h₂ =>
        (h₂.root t).bind fun r => removeLoop t fuel h₂ (h₂.parent r) (some r) := by
  have hgo : ¬ (x = h.root t ∨ getColor h x = .red) := by
    rw [hcolor]
    simpa using hne
  rw [removeLoop,if_neg hgo]
  simp only [Option.bind_eq_bind,Option.bind_some,hw,setMark_parent]

theorem blacken_balanced (hb : Balanced d .black n) : Balanced (blacken d) .black n := by
  cases hb with
  | leaf => exact .leaf
  | black hl hr => exact .black hl hr

theorem Finishes.of_red {l r : Shape EntryId RbTreeColor}
    (hb : Balanced (.node l x .black r) .black n) (hfits : Fits path .black n) :
    Finishes (Path.plug path (.node l x .red r)) (some x) := by
  obtain ⟨m,hm⟩ := hfits.plug hb
  exact ⟨path,.node l x .red r,m,rfl,rfl,hm⟩

theorem redden_reshapes (hh : h.Holds t (Path.plug (f :: path) d))
    (hsib : f.sibling = .facing f.side N w .black F) :
    Reshapes h (h.setMark w .red) t (Path.plug (f :: path) d)
      (Path.plug path (.facing f.side d f.a f.c (.facing f.side N w .red F))) := by
  rcases f with ⟨s,p,fc,sib⟩
  obtain rfl : sib = .facing s N w .black F := hsib
  have hview : h.Holds t (Path.plug (⟨s.other,p,fc,d⟩ :: path) (.facing s N w .black F)) := by
    rw [Path.plug_far]
    exact hh
  have hr := reshapes_setMark hview .red
  rw [Path.plug_far,Path.plug_far] at hr
  exact hr

theorem nephews_color (hh : h.Holds t (Path.plug (f :: path) d))
    (hsib : f.sibling = .facing f.side N w .black F) (hN : Balanced N cn n) (hF : Balanced F cf n) :
    (getColor h (h.child .left w) = .black ∧ getColor h (h.child .right w) = .black) ↔
      cn = .black ∧ cf = .black := by
  rcases f with ⟨s,p,fc,sib⟩
  obtain rfl : sib = .facing s N w .black F := hsib
  have hview : h.Holds t (Path.plug (⟨s.other,p,fc,d⟩ :: path) (.facing s N w .black F)) := by
    rw [Path.plug_far]
    exact hh
  obtain ⟨-,-,hnear,hfar,hlN,hlF⟩ := linked_facing.mp hview.inside
  have hcn := getColor_eq hlN hN
  have hcf := getColor_eq hlF hF
  cases s with
  | left =>
    simp only [Side.other] at hfar
    rw [hnear,hfar,hcn,hcf]
  | right =>
    simp only [Side.other] at hfar
    rw [hnear,hfar,hcn,hcf,and_comm]

theorem removeLoop_reshapes (hh : h.Holds t (Path.plug path d)) (hd : Short d n)
    (hfits : Fits path .black (n + 1)) (hfuel : path.length < fuel) :
    ∃ h' x' u, removeLoop t fuel h (Path.parent none path) d.top = some (h',x') ∧
      Reshapes h h' t (Path.plug path d) u ∧ Finishes u x' := by
  induction fuel generalizing h path d n with
  | zero => exact absurd hfuel (Nat.not_lt_zero _)
  | succ fuel ih =>
    rcases hd with hd | ⟨l,a,r,rfl,hblack⟩
    · cases path with
      | nil =>
        refine ⟨h,d.top,_,removeLoop_exit (.inl hh.root.symm),.refl hh,?_⟩
        exact ⟨[],d,n,rfl,rfl,blacken_balanced hd⟩
      | cons f rest =>
        have hsib : f.sibling ≠ .leaf := by
          rcases f with ⟨s,p,fc,sib⟩
          rintro rfl
          cases fc with
          | red => cases hfits.2.1
          | black =>
            obtain ⟨⟨c,hc⟩,-⟩ := hfits
            cases hc
        have hside := sideOf_hole hh hsib
        have hcolor : getColor h d.top = .black := getColor_eq hh.inside hd
        obtain ⟨h₁,f',rest',w,hw,hr₁,hfside,hfa,hwtop,hbal,hfits',hsame⟩ :=
          blackSibling_reshapes hh hfits
        rw [← hfside,← hfa] at hw
        have hside' : sideOf h f.a d.top = f'.side := by rw [hside,hfside]
        obtain ⟨N,cw,F,hsib'⟩ := Shape.exists_facing f'.side hwtop
        obtain rfl : cw = .black := by
          rw [hsib'] at hbal
          cases cw with
          | black => rfl
          | red => cases (balanced_red.mp hbal).1
        rw [hsib'] at hbal
        obtain ⟨-,m,hm,⟨cn,hN⟩,⟨cf,hF⟩⟩ := balanced_black.mp hbal
        obtain rfl : n = m := Nat.succ.inj hm
        have hcolors := nephews_color hr₁.holds hsib' hN hF
        have hne := top_ne_root hh
        have hpos : 0 < fuel := by
          simp only [List.length_cons] at hfuel
          omega
        obtain ⟨k,rfl⟩ := Nat.exists_eq_succ_of_ne_zero hpos.ne'
        by_cases hboth : cn = .black ∧ cf = .black
        · have hr₂ := hr₁.trans (redden_reshapes hr₁.holds hsib')
          obtain ⟨rfl,rfl⟩ := hboth
          have hparent : h₁.parent f.a = Path.parent none rest' := by
            rw [← hfa]
            exact hr₂.holds.node.1
          have hstep : removeLoop t (k + 1 + 1) h (some f.a) d.top =
              removeLoop t (k + 1) (h₁.setMark w .red) (Path.parent none rest') (some f.a) := by
            rw [hfa,← hside'] at hw
            rw [removeLoop_step hne hcolor hw,if_pos (hcolors.mpr ⟨rfl,rfl⟩),hparent]
          obtain ⟨h₂,x,u,hloop,hr₃,hu⟩ : ∃ h₂ x u,
              removeLoop t (k + 1) (h₁.setMark w .red) (Path.parent none rest') (some f.a) =
                some (h₂,x) ∧
              Reshapes (h₁.setMark w .red) h₂ t (Path.plug rest' (.facing f'.side d f'.a f'.c
                (.facing f'.side N w .red F))) u ∧ Finishes u x := by
            have hF' : Balanced (.facing f'.side N w .red F) .red n :=
              balanced_red.mpr ⟨rfl,hN,hF⟩
            have hblack : Balanced (.facing f'.side d f'.a .black (.facing f'.side N w .red F))
                .black (n + 1) := balanced_black.mpr ⟨rfl,n,rfl,⟨.black,hd⟩,⟨.red,hF'⟩⟩
            have hr₃ := hr₂.holds
            rw [← hfa]
            cases hc : f'.c with
            | red =>
              rw [hc] at hr₃
              have hexit : getColor (h₁.setMark w .red) (some f'.a) = .red := hr₃.node.2.1
              have hfitsRed : Fits rest' .red (n + 1) := by
                simp only [Fits,hc] at hfits'
                exact hfits'.2.2
              refine ⟨_,some f'.a,_,removeLoop_exit (.inr hexit),.refl hr₃,?_⟩
              cases hs : f'.side with
              | left =>
                rw [hs] at hblack
                exact .of_red hblack hfitsRed.of_red
              | right =>
                rw [hs] at hblack
                exact .of_red hblack hfitsRed.of_red
            | black =>
              rw [hc] at hr₃
              obtain rfl := hsame hc
              simp only [Fits,hc] at hfits'
              have hfuel' : rest'.length < k + 1 := by
                simp only [List.length_cons] at hfuel
                omega
              have hrec := ih hr₃ (.inl hblack) hfits'.2 hfuel'
              rwa [Shape.top_facing] at hrec
          exact ⟨h₂,x,u,hstep.trans hloop,hr₂.trans hr₃,hu⟩
        · have hred : cn = .red ∨ cf = .red := by
            cases cn with
            | red => exact .inl rfl
            | black =>
              cases cf with
              | red => exact .inr rfl
              | black => exact absurd ⟨rfl,rfl⟩ hboth
          have hfits₂ : Fits rest' f'.c (n + 1 + if f'.c = .black then 1 else 0) := by
            rcases f' with ⟨s,p,fc,sib⟩
            cases fc with
            | red => exact hfits'.2.2
            | black => exact hfits'.2
          obtain ⟨h₂,u,m,hrotate,hr₂,hu,hleaf⟩ :=
            rotateSibling_reshapes hr₁.holds hsib' hd hN hF hred hfits₂
          obtain ⟨r,hr⟩ : ∃ r, h₂.root t = some r := by
            rw [hr₂.holds.root]
            cases u with
            | leaf => exact absurd rfl hleaf
            | node l a c r => exact ⟨a,rfl⟩
          have hstep : removeLoop t (k + 1 + 1) h (some f.a) d.top = some (h₂,some r) := by
            rw [hfa,← hside'] at hw hrotate
            rw [removeLoop_step hne hcolor hw,if_neg (fun h => hboth (hcolors.mp h)),hrotate]
            simp only [Option.bind_some,hr]
            exact removeLoop_exit (.inl hr.symm)
          refine ⟨h₂,some r,u,hstep,hr₁.trans hr₂,?_⟩
          rw [← hr,hr₂.holds.root]
          exact .of_balanced hu
    · have hcolor : getColor h (some a) = .red := hh.inside.2.1
      refine ⟨h,some a,_,removeLoop_exit (.inr hcolor),.refl hh,?_⟩
      exact .of_red hblack hfits

theorem Finishes.blackened {x : Option EntryId} (hu : Finishes u x) (hh : h.Holds t u) :
    ∃ u' m, Reshapes h (match x with
      | none => h
      | some x => h.setMark x .black) t u u' ∧ Balanced u' .black m := by
  obtain ⟨path,d,m,rfl,rfl,hb⟩ := hu
  cases d with
  | leaf => exact ⟨_,m,.refl hh,hb⟩
  | node l a c r =>
    have hview : h.Holds t (Path.plug path (.facing .left l a c r)) := hh
    exact ⟨_,m,reshapes_setMark hview .black,hb⟩

theorem rebalanceOnRemove_reshapes (hh : h.Holds t (Path.plug path d)) (hmark : h.mark p = c)
    (hparent : h.parent p = Path.parent none path) (hfits : Fits path c n)
    (hb : Balanced (.facing s .leaf p c d) c n) (hlt : ∀ e ∈ (Path.plug path d).ids, e < fuel)
    (hp : p ∉ (Path.plug path d).ids) (hplt : p < fuel) :
    ∃ h' u m, rebalanceOnRemove h fuel t p d.top = some h' ∧
      Reshapes h h' t (Path.plug path d) u ∧ Balanced u .black m := by
  have hlen : (Path.plug path d).ids.length < fuel := by
    have hsub : p :: (Path.plug path d).ids ⊆ List.range fuel := by
      intro e he
      rw [List.mem_range]
      rcases List.mem_cons.mp he with rfl | he
      · exact hplt
      · exact hlt e he
    have hnodup : (p :: (Path.plug path d).ids).Nodup := List.nodup_cons.mpr ⟨hp,hh.nodup⟩
    have hlen := (List.subperm_of_subset hnodup hsub).length_le
    rwa [List.length_cons,List.length_range] at hlen
  cases c with
  | red =>
    obtain ⟨-,-,hd⟩ := balanced_red.mp hb
    obtain ⟨m,hm⟩ := hfits.of_red.plug hd
    refine ⟨h,_,m,?_,.refl hh,hm⟩
    simp [rebalanceOnRemove,hmark]
  | black =>
    obtain ⟨-,k,rfl,-,c',hd⟩ := balanced_black.mp hb
    have hle := Path.length_le_ids_plug path d
    have hfuel : path.length < fuel := by omega
    obtain ⟨h₁,x,u₁,hloop,hr₁,hu₁⟩ := removeLoop_reshapes hh (short_of_balanced hd) hfits hfuel
    obtain ⟨u₂,m,hr₂,hm⟩ := hu₁.blackened hr₁.holds
    have hr := hr₁.trans hr₂
    have hlen' : u₂.ids.length ≤ fuel := by
      rw [hr.ids]
      exact hlen.le
    have hcheck := checked_eq hr.holds hm hlen'
    refine ⟨_,u₂,m,?_,hr,hm⟩
    simp only [rebalanceOnRemove,hmark,hparent,hloop,Option.bind_eq_bind,Option.bind_some]
    exact hcheck

end Jancy.Stdt.RbNodes
