import Jancy.Stdt.BinTree

/-! What the rotations and the exchange of two nodes do to the shape of a tree. -/
namespace Jancy.Stdt.TreeNodes

open LinkedTrees

variable {P : Type} {h h' : TreeNodes P} {t : TableId} {path : Path EntryId P}
  {a b e : Shape EntryId P} {s : Side} {x y : EntryId} {c d : P}

/-- The stores of a rotation, with what they read. -/
def rotated (h : TreeNodes P) (s : Side) (t : TableId) (path : Path EntryId P) (x y : EntryId)
    (b : Option EntryId) : TreeNodes P :=
  (((((h.setChild s.other x b).setParentOf b (some x)).setParent y (Path.parent none path)).setHole
    t path (some y)).setChild s y (some x)).setParent x (some y)

theorem rotate_eq (hh : h.Holds t (Path.plug path (.facing s a x c (.facing s b y d e)))) :
    rotate h s t x = some (rotated h s t path x y b.top) := by
  obtain ⟨hpx,-,-,hyx,-,hly⟩ := linked_facing.mp hh.inside
  obtain ⟨-,-,hby,-⟩ := linked_facing.mp hly
  rw [Shape.top_facing] at hyx
  obtain ⟨-,hnodup,hdisjoint⟩ := Path.nodup_plug.mp hh.nodup
  obtain ⟨-,hxy,-⟩ := Shape.nodup_facing.mp hnodup
  have hxp : x ∉ Path.ids path := hdisjoint (by simp)
  have hyp : y ∉ Path.ids path := hdisjoint (by simp)
  have hbp : ∀ z, b.top = some z → z ∉ Path.ids path := by
    intro z hz
    exact hdisjoint (by simp [Shape.top_mem hz])
  have hxb : b.top ≠ some x := by
    intro htop
    exact hxy (by simp [Shape.top_mem htop])
  have haround := hh.around
  rw [Shape.top_facing] at haround
  have hsame : h.SameOn (((h.setChild s.other x b.top).setParentOf b.top (some x)).setParent y
      (Path.parent none path)) (Path.ids path) :=
    (sameOn_setChild hxp).trans ((sameOn_setParentOf hbp).trans (sameOn_setParent hyp))
  have hrelink := relink_eq_setHole (i := t) (v := some y) (haround.congr hsame) hxp s
  simp [rotate,hyx,hby,hxb,hpx,hrelink,rotated]

theorem rotated_sameOn {xs : List EntryId} {b : Option EntryId} (hx : x ∉ xs) (hy : y ∉ xs)
    (hb : ∀ z, b = some z → z ∉ xs) (hp : xs.Disjoint (Path.ids path)) :
    h.SameOn (rotated h s t path x y b) xs :=
  (sameOn_setChild hx).trans ((sameOn_setParentOf hb).trans ((sameOn_setParent hy).trans
    ((sameOn_setHole hp).trans ((sameOn_setChild hy).trans (sameOn_setParent hx)))))

/-- A rotation keeps the order of the nodes and the marks. -/
theorem rotate_holds
    (hh : h.Holds t (Path.plug path (.facing s a x c (.facing s b y d e)))) :
    ∃ h', rotate h s t x = some h' ∧
      h'.Holds t (Path.plug path (.facing s (.facing s a x c b) y d e)) ∧
      h.Within h' t (Path.plug path (.facing s a x c (.facing s b y d e))).ids := by
  obtain ⟨-,hcx,hax,-,hla,hly⟩ := linked_facing.mp hh.inside
  obtain ⟨-,hcy,hby,hey,hlb,hle⟩ := linked_facing.mp hly
  obtain ⟨hpath,hnodup,hdisjoint⟩ := Path.nodup_plug.mp hh.nodup
  obtain ⟨hxa,hxy,ha,hy,hay⟩ := Shape.nodup_facing.mp hnodup
  obtain ⟨hyb,hye,hb,he,hbe⟩ := Shape.nodup_facing.mp hy
  have hxp : x ∉ Path.ids path := hdisjoint (by simp)
  have hyp : y ∉ Path.ids path := hdisjoint (by simp)
  have hids : (Path.plug path (Shape.facing s (Shape.facing s a x c b) y d e)).ids =
      (Path.plug path (Shape.facing s a x c (Shape.facing s b y d e))).ids := by
    rw [Path.ids_plug,Path.ids_plug]
    cases s <;> simp [Shape.facing,Shape.ids]
  simp only [Shape.mem_ids_facing,not_or] at hxy
  obtain ⟨hxy,hxb,hxe⟩ := hxy
  have hne : x ≠ y := hxy
  have hya : y ∉ a.ids := fun hmem => hay hmem (by simp)
  have hab : a.ids.Disjoint b.ids := fun z hz hz' => hay hz (by simp [hz'])
  refine ⟨_,rotate_eq hh,?_,?_⟩
  · apply hh.refill
    · intro z hz s'
      have hzx : z ≠ x := fun heq => hxp (heq ▸ hz)
      have hzy : z ≠ y := fun heq => hyp (heq ▸ hz)
      simp [rotated,hzx,hzy]
    · intro z hz
      have hzx : z ≠ x := fun heq => hxp (heq ▸ hz)
      have hzy : z ≠ y := fun heq => hyp (heq ▸ hz)
      have hzb : b.top ≠ some z := by
        intro htop
        exact hdisjoint (a := z) (by simp [Shape.top_mem htop]) hz
      simp [rotated,hzx,hzy,hzb]
    · intro z _
      simp [rotated]
    · simp [rotated]
    · have hhole : ∀ s', Path.hole path ≠ some (s',y) := fun s' => Path.hole_ne hyp
      have hhole' : ∀ s', Path.hole path ≠ some (s',x) := fun s' => Path.hole_ne hxp
      refine linked_facing.mpr ⟨?_,?_,?_,?_,linked_facing.mpr ⟨?_,?_,?_,?_,?_,?_⟩,?_⟩
      · simp [rotated,hne.symm]
      · simp [rotated,hcy]
      · simp [rotated]
      · simp [rotated,hne.symm,hhole,hey]
      · simp [rotated]
      · simp [rotated,hcx]
      · simp [rotated,hne,hhole',hax]
      · simp [rotated,hne,hhole']
      · exact hla.congr (rotated_sameOn hxa hya (fun z hz hmem => hab hmem (Shape.top_mem hz))
          fun z hz => hdisjoint (by simp [hz]))
      · apply hlb.reparent
        · intro z hz s'
          have hzx : z ≠ x := fun heq => hxb (heq ▸ hz)
          have hzy : z ≠ y := fun heq => hyb (heq ▸ hz)
          have hzp : Path.hole path ≠ some (s',z) :=
            Path.hole_ne (hdisjoint (by simp [hz]))
          simp [rotated,hzx,hzy,hzp]
        · intro z hz
          simp [rotated]
        · intro z hz htop
          have hzx : z ≠ x := fun heq => hxb (heq ▸ hz)
          have hzy : z ≠ y := fun heq => hyb (heq ▸ hz)
          simp [rotated,hzx,hzy,htop]
        · intro z hz
          have hmem := Shape.top_mem hz
          have hzx : z ≠ x := fun heq => hxb (heq ▸ hmem)
          have hzy : z ≠ y := fun heq => hyb (heq ▸ hmem)
          simp [rotated,hzx,hzy,hz]
        · exact hb
      · exact hle.congr (rotated_sameOn hxe hye (fun z hz hmem => hbe (Shape.top_mem hz) hmem)
          fun z hz => hdisjoint (by simp [hz]))
    · rw [hids]
      exact hh.nodup
  · apply within_of_sameOn
    · intro z hz
      rw [Path.mem_ids_plug] at hz
      simp only [Shape.mem_ids_facing,not_or] at hz
      obtain ⟨hzp,hzx,hza,hzy,hzb,hze⟩ := hz
      apply rotated_sameOn
      · simpa using Ne.symm hzx
      · simpa using Ne.symm hzy
      · intro w hw hmem
        exact hzb (List.mem_singleton.mp hmem ▸ Shape.top_mem hw)
      · simpa using hzp
    · intro j hj
      simp [rotated,hj]

/-- The first or the last node. -/
def endOf (s : Side) (u : Shape EntryId P) : Option EntryId :=
  match s with
  | .left => u.ids.head?
  | .right => u.ids.getLast?

theorem endOf_facing {near far : Shape EntryId P} :
    endOf s (.facing s near x c far) = (endOf s near).or (some x) := by
  cases s with
  | left => simp [endOf,Shape.facing,Shape.ids,List.head?_append]
  | right =>
    rw [endOf,endOf,Shape.facing,Shape.ids,List.getLast?_append,List.getLast?_cons]
    cases near.ids.getLast? <;> rfl

theorem outermost_eq {q : Option EntryId} {u : Shape EntryId P} {fuel : ℕ} (hl : h.Linked q u)
    (htop : u.top = some x) (hfuel : u.ids.length ≤ fuel) :
    outermost h s fuel x = endOf s u := by
  induction fuel generalizing q u x with
  | zero =>
    have hmem := Shape.top_mem htop
    rw [List.eq_nil_of_length_eq_zero (Nat.le_zero.mp hfuel)] at hmem
    cases hmem
  | succ fuel ih =>
    obtain ⟨near,c,far,rfl⟩ := Shape.exists_facing s htop
    obtain ⟨-,-,hchild,-,hnear,-⟩ := linked_facing.mp hl
    have hlen : near.ids.length ≤ fuel := by
      cases s with
      | left =>
        simp [Shape.facing,Shape.ids] at hfuel
        omega
      | right =>
        simp [Shape.facing,Shape.ids] at hfuel
        omega
    rw [outermost,hchild,endOf_facing]
    cases hnext : near.top with
    | none =>
      rw [Shape.eq_leaf hnext]
      cases s <;> rfl
    | some y =>
      simp only
      rw [ih hnear hnext hlen]
      obtain ⟨z,hz⟩ : ∃ z, endOf s near = some z := by
        obtain ⟨near',c',far',rfl⟩ := Shape.exists_facing s hnext
        rw [endOf_facing]
        cases endOf s near' with
        | none => exact ⟨y,rfl⟩
        | some z => exact ⟨z,rfl⟩
      rw [hz]
      rfl

/-- The links of the two nodes after an exchange: `x` is at the end of `spine`. -/
def exchangedLinks (h : TreeNodes P) (path spine : Path EntryId P) (p x : EntryId)
    (l rr r : Option EntryId) : TreeNodes P :=
  (setLinks h p none rr (Path.parent (some x) spine)).setLinks x l r (Path.parent none path)

/-- The link to the node that goes down. -/
def setEnd (h : TreeNodes P) (spine : Path EntryId P) (p x : EntryId) : TreeNodes P :=
  match spine with
  | [] => h.setChild .right x (some p)
  | f :: _ => h.setChild .left f.a (some p)

/-- The stores of an exchange, with what they read. -/
def exchanged (h : TreeNodes P) (t : TableId) (path spine : Path EntryId P) (p x : EntryId)
    (l rr r : Option EntryId) : TreeNodes P :=
  exchangeParams ((((((setEnd (exchangedLinks h path spine p x l rr r) spine p x).setHole t path
    (some x)).setParentOf rr (some p)).setParentOf l (some x)).setParentOf r (some x))) p x

section Exchange

variable {l rr : Shape EntryId P} {spine : Path EntryId P} {p : EntryId} {cs : P}

/-- `x` is the first node on the right of `p`. -/
structure NextTo (h : TreeNodes P) (path spine : Path EntryId P) (l rr : Shape EntryId P)
    (p x : EntryId) (c cs : P) : Prop where
  aroundPath : h.Around none path (some p)
  parent : h.parent p = Path.parent none path
  mark : h.mark p = c
  left : h.child .left p = l.top
  right : h.child .right p = (Path.plug spine (.node .leaf x cs rr)).top
  aroundSpine : h.Around (some p) spine (some x)
  parentNext : h.parent x = Path.parent (some p) spine
  markNext : h.mark x = cs
  leftNext : h.child .left x = none
  rightNext : h.child .right x = rr.top
  below : h.Linked (some p) l
  belowNext : h.Linked (some x) rr
  side : ∀ f ∈ spine, f.side = .left
  pathNodup : (Path.ids path).Nodup
  spineNodup : (Path.ids spine).Nodup
  leftNodup : l.ids.Nodup
  rightNodup : rr.ids.Nodup
  ne : p ≠ x
  notPath : p ∉ Path.ids path ∧ x ∉ Path.ids path
  notSpine : p ∉ Path.ids spine ∧ x ∉ Path.ids spine
  notLeft : p ∉ l.ids ∧ x ∉ l.ids
  notRight : p ∉ rr.ids ∧ x ∉ rr.ids
  pathApart : (Path.ids path).Disjoint (Path.ids spine)
  leftApart : l.ids.Disjoint (Path.ids path) ∧ l.ids.Disjoint (Path.ids spine) ∧
    l.ids.Disjoint rr.ids
  rightApart : rr.ids.Disjoint (Path.ids path) ∧ rr.ids.Disjoint (Path.ids spine)

theorem nextTo_of_holds
    (hh : h.Holds t (Path.plug path (.node l p c (Path.plug spine (.node .leaf x cs rr)))))
    (hside : ∀ f ∈ spine, f.side = .left) : NextTo h path spine l rr p x c cs := by
  have hnode : h.Linked (Path.parent none path) (.facing .left l p c
      (Path.plug spine (.node .leaf x cs rr))) := hh.inside
  obtain ⟨hpp,hcp,hlp,hrp,hll,hlr⟩ := linked_facing.mp hnode
  obtain ⟨haround,hpx,hcx,hlx,hrx,-,hlrr⟩ := linked_plug.mp hlr
  obtain ⟨hnp,hnodup,hdisjoint⟩ := Path.nodup_plug.mp hh.nodup
  have hnodup' : (Shape.facing .left l p c (Path.plug spine (.node .leaf x cs rr))).ids.Nodup :=
    hnodup
  obtain ⟨hpl,hpr,hnl,hnr,hapart⟩ := Shape.nodup_facing.mp hnodup'
  obtain ⟨hns,hnx,hxspine⟩ := Path.nodup_plug.mp hnr
  have hnx' : (Shape.facing .left .leaf x cs rr).ids.Nodup := hnx
  obtain ⟨-,hxrr,-,hnrr,-⟩ := Shape.nodup_facing.mp hnx'
  have hin : ∀ z, z = p ∨ z = x ∨ z ∈ l.ids ∨ z ∈ rr.ids ∨ z ∈ Path.ids spine →
      z ∈ (Shape.node l p c (Path.plug spine (.node .leaf x cs rr))).ids := by
    intro z hz
    simp only [Shape.ids,List.mem_append,List.mem_cons,Path.mem_ids_plug,List.not_mem_nil,
      false_or]
    tauto
  have hinRight : ∀ z, z = x ∨ z ∈ rr.ids ∨ z ∈ Path.ids spine →
      z ∈ (Path.plug spine (.node .leaf x cs rr)).ids := by
    intro z hz
    simp only [Shape.ids,Path.mem_ids_plug,List.mem_append,List.mem_cons,List.not_mem_nil,false_or]
    tauto
  have hinNext : ∀ z, z = x ∨ z ∈ rr.ids → z ∈ (Shape.node .leaf x cs rr).ids := by
    intro z hz
    simpa [Shape.ids] using hz
  exact {
    aroundPath := hh.around
    parent := hpp
    mark := hcp
    left := hlp
    right := hrp
    aroundSpine := haround
    parentNext := hpx
    markNext := hcx
    leftNext := hlx
    rightNext := hrx
    below := hll
    belowNext := hlrr
    side := hside
    pathNodup := hnp
    spineNodup := hns
    leftNodup := hnl
    rightNodup := hnrr
    ne := fun heq => hpr (hinRight p (.inl heq))
    notPath := ⟨hdisjoint (hin p (.inl rfl)),hdisjoint (hin x (.inr (.inl rfl)))⟩
    notSpine := ⟨fun hmem => hpr (hinRight p (.inr (.inr hmem))),
      hxspine (hinNext x (.inl rfl))⟩
    notLeft := ⟨hpl,fun hmem => hapart hmem (hinRight x (.inl rfl))⟩
    notRight := ⟨fun hmem => hpr (hinRight p (.inr (.inl hmem))),hxrr⟩
    pathApart := fun z hz hz' => hdisjoint (hin z (.inr (.inr (.inr (.inr hz'))))) hz
    leftApart := ⟨fun z hz => hdisjoint (hin z (.inr (.inr (.inl hz)))),
      fun z hz hz' => hapart hz (hinRight z (.inr (.inr hz'))),
      fun z hz hz' => hapart hz (hinRight z (.inr (.inl hz')))⟩
    rightApart := ⟨fun z hz => hdisjoint (hin z (.inr (.inr (.inr (.inl hz))))),
      fun z hz => hxspine (hinNext z (.inr hz))⟩ }

theorem NextTo.exchangeLinks_eq (hn : NextTo h path spine l rr p x c cs) :
    exchangeLinks h p x = exchangedLinks h path spine p x l.top rr.top
      (Path.plug spine (.node .leaf p cs rr)).top := by
  cases spine with
  | nil =>
    have hright : h.child .right p = some x := hn.right
    simp [exchangeLinks,exchangedLinks,hn.leftNext,hn.rightNext,hn.parent,hn.left,hright,
      Path.parent,Path.plug,Shape.top]
  | cons f rest =>
    have hright : h.child .right p = (Path.plug (f :: rest) (.node .leaf p cs rr)).top := by
      rw [hn.right]
      exact Path.top_plug_cons f rest _ _
    have hnot : (Path.plug (f :: rest) (.node .leaf p cs rr)).top ≠ some x := by
      rw [Path.top_plug,if_neg (List.cons_ne_nil f rest)]
      exact fun heq => hn.notSpine.2 (Path.outer_mem heq)
    have hparent : h.parent x = some f.a := hn.parentNext
    simp [exchangeLinks,exchangedLinks,hn.leftNext,hn.rightNext,hn.parent,hn.left,hright,hnot,
      hparent,Path.parent]

theorem NextTo.fixupParent_end (hn : NextTo h path spine l rr p x c cs) (r : Option EntryId) :
    fixupParent (exchangedLinks h path spine p x l.top rr.top r) t p x =
      setEnd (exchangedLinks h path spine p x l.top rr.top r) spine p x := by
  have hparent : (exchangedLinks h path spine p x l.top rr.top r).parent p =
      Path.parent (some x) spine := by
    simp [exchangedLinks,setLinks,hn.ne]
  rw [fixupParent,hparent]
  cases spine with
  | nil =>
    have hnot : l.top ≠ some x := fun htop => hn.notLeft.2 (Shape.top_mem htop)
    simp [relink,Path.parent,setEnd,exchangedLinks,setLinks,hnot,Side.other]
  | cons f rest =>
    have hside : f.side = .left := hn.side f List.mem_cons_self
    have hhole : h.child .left f.a = some x := hside ▸ hn.aroundSpine.2.2.1
    have hmem : f.a ∈ Path.ids (f :: rest) := by simp
    have hfp : f.a ≠ p := fun heq => hn.notSpine.1 (heq ▸ hmem)
    have hfx : f.a ≠ x := fun heq => hn.notSpine.2 (heq ▸ hmem)
    simp [relink,Path.parent,setEnd,exchangedLinks,setLinks,hfp,hfx,hhole]

theorem setLinks_sameOn {xs : List EntryId} {l r q : Option EntryId} (hp : p ∉ xs) :
    h.SameOn (setLinks h p l r q) xs :=
  (sameOn_setChild hp).trans ((sameOn_setChild hp).trans (sameOn_setParent hp))

theorem setEnd_sameOn {xs : List EntryId} (hx : x ∉ xs) (hs : xs.Disjoint (Path.ids spine)) :
    h.SameOn (setEnd h spine p x) xs := by
  cases spine with
  | nil => exact sameOn_setChild hx
  | cons f rest => exact sameOn_setChild fun hmem => hs hmem (by simp)

theorem setEnd_parent : (setEnd h spine p x).parent = h.parent := by
  cases spine <;> rfl

theorem setEnd_mark : (setEnd h spine p x).mark = h.mark := by
  cases spine <;> rfl

theorem setEnd_root : (setEnd h spine p x).root = h.root := by
  cases spine <;> rfl

section

variable (hn : NextTo h path spine l rr p x c cs)

include hn

theorem NextTo.links_sameOn (r : Option EntryId) :
    h.SameOn (setEnd (exchangedLinks h path spine p x l.top rr.top r) spine p x)
      (Path.ids path) :=
  (setLinks_sameOn hn.notPath.1).trans ((setLinks_sameOn hn.notPath.2).trans
    (setEnd_sameOn hn.notPath.2 hn.pathApart))

theorem NextTo.fixupParent_next (r : Option EntryId) :
    fixupParent (setEnd (exchangedLinks h path spine p x l.top rr.top r) spine p x) t x p =
      (setEnd (exchangedLinks h path spine p x l.top rr.top r) spine p x).setHole t path
        (some x) := by
  have hparent : (setEnd (exchangedLinks h path spine p x l.top rr.top r) spine p x).parent x =
      Path.parent none path := by
    rw [setEnd_parent]
    simp [exchangedLinks,setLinks]
  rw [fixupParent,hparent]
  exact relink_eq_setHole (hn.aroundPath.congr (hn.links_sameOn r)) hn.notPath.1 .left

theorem NextTo.children (u : Shape EntryId P) (hu : u.top = some p) :
    let h' := (setEnd (exchangedLinks h path spine p x l.top rr.top (Path.plug spine u).top)
      spine p x).setHole t path (some x)
    h'.child .left p = none ∧ h'.child .right p = rr.top ∧ h'.child .left x = l.top ∧
      h'.child .right x = (Path.plug spine u).top := by
  have hne := hn.ne
  have hholep : ∀ s, Path.hole path ≠ some (s,p) := fun s => Path.hole_ne hn.notPath.1
  have hholex : ∀ s, Path.hole path ≠ some (s,x) := fun s => Path.hole_ne hn.notPath.2
  cases spine with
  | nil => simp [setEnd,exchangedLinks,setLinks,hholep,hholex,hne,Path.plug,hu]
  | cons f rest =>
    have hmem : f.a ∈ Path.ids (f :: rest) := by simp
    have hfp : p ≠ f.a := fun heq => hn.notSpine.1 (heq ▸ hmem)
    have hfx : x ≠ f.a := fun heq => hn.notSpine.2 (heq ▸ hmem)
    simp [setEnd,exchangedLinks,setLinks,hholep,hholex,hne,hfp,hfx]

theorem NextTo.exchange_eq :
    exchange h t p x = some (exchanged h t path spine p x l.top rr.top
      (Path.plug spine (.node .leaf p cs rr)).top) := by
  have hright : h.child .right x ≠ some p := by
    rw [hn.rightNext]
    exact fun htop => hn.notRight.1 (Shape.top_mem htop)
  have hleft : h.child .left p ≠ some x := by
    rw [hn.left]
    exact fun htop => hn.notLeft.2 (Shape.top_mem htop)
  obtain ⟨hpl,hpr,hxl,hxr⟩ := hn.children (t := t) (.node .leaf p cs rr) rfl
  have hexchange : exchange h t p x = some (exchangeParams (fixupChildren (fixupChildren
      (fixupParent (fixupParent (exchangeLinks h p x) t p x) t x p) p) x) p x) := by
    simp [exchange,guard,hright,hleft]
  rw [hexchange,hn.exchangeLinks_eq,hn.fixupParent_end,hn.fixupParent_next,exchanged]
  generalize (setEnd _ spine p x).setHole t path (some x) = h₃ at *
  have hchildren : fixupChildren h₃ p = h₃.setParentOf rr.top (some p) := by
    rw [fixupChildren,hpl,hpr]
    rfl
  rw [hchildren,fixupChildren]
  simp only [setParentOf_child,hxl,hxr]

end

variable {lo ro r : Option EntryId} {z : EntryId}

theorem exchanged_parent : (exchanged h t path spine p x lo ro r).parent z =
    if r = some z ∨ lo = some z then some x else if ro = some z then some p
    else if z = x then Path.parent none path else if z = p then Path.parent (some x) spine
    else h.parent z := by
  simp only [exchanged,exchangeParams,setMark_parent,setParentOf_parent,setHole_parent,
    setEnd_parent,exchangedLinks,setLinks,setParent_parent,setChild_parent]
  split <;> simp_all

theorem exchanged_mark : (exchanged h t path spine p x lo ro r).mark z =
    if z = x then h.mark p else if z = p then h.mark x else h.mark z := by
  simp [exchanged,exchangeParams,setEnd_mark,exchangedLinks,setLinks]

theorem exchanged_child {s : Side} : (exchanged h t path spine p x lo ro r).child s z =
    ((setEnd (exchangedLinks h path spine p x lo ro r) spine p x).setHole t path
      (some x)).child s z := by
  simp [exchanged,exchangeParams]

theorem exchanged_root : (exchanged h t path spine p x lo ro r).root =
    (h.setHole t path (some x)).root := by
  funext j
  simp [exchanged,exchangeParams,setEnd_root,exchangedLinks,setLinks]

theorem exchanged_child_of_ne {s : Side} (hp : z ≠ p) (hx : z ≠ x)
    (hspine : ∀ f ∈ spine, f.side = .left) :
    (exchanged h t path spine p x lo ro r).child s z =
      if Path.hole path = some (s,z) then some x
      else if Path.hole spine = some (s,z) then some p else h.child s z := by
  rw [exchanged_child,setHole_child]
  cases spine with
  | nil => simp [setEnd,exchangedLinks,setLinks,hp,hx,Path.hole]
  | cons f rest =>
    have hside : f.side = .left := hspine f List.mem_cons_self
    simp [setEnd,exchangedLinks,setLinks,hp,hx,Path.hole,hside,eq_comm]

theorem top_plug_ne {u : Shape EntryId P} (hu : u.top = some p) (hz : z ∉ Path.ids spine)
    (hp : z ≠ p) : (Path.plug spine u).top ≠ some z := by
  rw [Path.top_plug]
  split
  · rw [hu]
    exact fun heq => hp (Option.some.inj heq).symm
  · exact fun heq => hz (Path.outer_mem heq)

theorem exchanged_parent_of_ne (hr : r ≠ some z) (hl : lo ≠ some z) (hro : ro ≠ some z)
    (hx : z ≠ x) (hp : z ≠ p) :
    (exchanged h t path spine p x lo ro r).parent z = h.parent z := by
  simp [exchanged_parent,hr,hl,hro,hx,hp]

section

variable (hn : NextTo h path spine l rr p x c cs)

include hn

theorem NextTo.exchanged_spine :
    (exchanged h t path spine p x l.top rr.top
      (Path.plug spine (.node .leaf p cs rr)).top).Around (some x) spine (some p) := by
  have hne : ∀ z ∈ Path.ids spine, z ≠ p ∧ z ≠ x := fun z hz =>
    ⟨fun heq => hn.notSpine.1 (heq ▸ hz),fun heq => hn.notSpine.2 (heq ▸ hz)⟩
  have hoff : ∀ z ∈ Path.ids spine, ∀ s, Path.hole path ≠ some (s,z) := fun z hz s =>
    Path.hole_ne fun hmem => hn.pathApart hmem hz
  apply hn.aroundSpine.rehang hn.spineNodup
  · intro z hz s
    rw [exchanged_child_of_ne (hne z hz).1 (hne z hz).2 hn.side,if_neg (hoff z hz s)]
  · intro z hz
    rw [exchanged_mark,if_neg (hne z hz).2,if_neg (hne z hz).1]
  · intro z hz houter
    have hl : l.top ≠ some z := fun htop => hn.leftApart.2.1 (Shape.top_mem htop) hz
    have hrr : rr.top ≠ some z := fun htop => hn.rightApart.2 (Shape.top_mem htop) hz
    have hr : (Path.plug spine (Shape.node .leaf p cs rr)).top ≠ some z := by
      rw [Path.top_plug]
      split
      · exact fun heq => (hne z hz).1 (Option.some.inj heq).symm
      · exact houter
    exact exchanged_parent_of_ne hr hl hrr (hne z hz).2 (hne z hz).1
  · intro z hz
    have hmem := Path.outer_mem hz
    have hr : (Path.plug spine (Shape.node .leaf p cs rr)).top = some z := by
      cases spine with
      | nil => cases hz
      | cons f rest => rw [Path.top_plug,if_neg (List.cons_ne_nil f rest),hz]
    rw [exchanged_parent,if_pos (.inl hr)]

theorem NextTo.exchanged_left :
    (exchanged h t path spine p x l.top rr.top
      (Path.plug spine (.node .leaf p cs rr)).top).Linked (some x) l := by
  have hne : ∀ z ∈ l.ids, z ≠ p ∧ z ≠ x := fun z hz =>
    ⟨fun heq => hn.notLeft.1 (heq ▸ hz),fun heq => hn.notLeft.2 (heq ▸ hz)⟩
  apply hn.below.reparent
  · intro z hz s
    rw [exchanged_child_of_ne (hne z hz).1 (hne z hz).2 hn.side,
      if_neg (Path.hole_ne (hn.leftApart.1 hz)),if_neg (Path.hole_ne (hn.leftApart.2.1 hz))]
  · intro z hz
    rw [exchanged_mark,if_neg (hne z hz).2,if_neg (hne z hz).1]
  · intro z hz htop
    have hrr : rr.top ≠ some z := fun heq => hn.leftApart.2.2 hz (Shape.top_mem heq)
    exact exchanged_parent_of_ne (top_plug_ne rfl (hn.leftApart.2.1 hz) (hne z hz).1) htop hrr
      (hne z hz).2 (hne z hz).1
  · intro z hz
    rw [exchanged_parent,if_pos (.inr hz)]
  · exact hn.leftNodup

theorem NextTo.exchanged_right :
    (exchanged h t path spine p x l.top rr.top
      (Path.plug spine (.node .leaf p cs rr)).top).Linked (some p) rr := by
  have hne : ∀ z ∈ rr.ids, z ≠ p ∧ z ≠ x := fun z hz =>
    ⟨fun heq => hn.notRight.1 (heq ▸ hz),fun heq => hn.notRight.2 (heq ▸ hz)⟩
  have hr : ∀ z ∈ rr.ids, (Path.plug spine (Shape.node .leaf p cs rr)).top ≠ some z :=
    fun z hz => top_plug_ne rfl (hn.rightApart.2 hz) (hne z hz).1
  have hl : ∀ z ∈ rr.ids, l.top ≠ some z :=
    fun z hz heq => hn.leftApart.2.2 (Shape.top_mem heq) hz
  apply hn.belowNext.reparent
  · intro z hz s
    rw [exchanged_child_of_ne (hne z hz).1 (hne z hz).2 hn.side,
      if_neg (Path.hole_ne (hn.rightApart.1 hz)),if_neg (Path.hole_ne (hn.rightApart.2 hz))]
  · intro z hz
    rw [exchanged_mark,if_neg (hne z hz).2,if_neg (hne z hz).1]
  · intro z hz htop
    exact exchanged_parent_of_ne (hr z hz) (hl z hz) htop (hne z hz).2 (hne z hz).1
  · intro z hz
    have hmem := Shape.top_mem hz
    simp [exchanged_parent,hr z hmem,hl z hmem,hz]
  · exact hn.rightNodup

theorem NextTo.exchanged_nodes :
    let h' := exchanged h t path spine p x l.top rr.top
      (Path.plug spine (Shape.node .leaf p cs rr)).top
    h'.parent x = Path.parent none path ∧ h'.parent p = Path.parent (some x) spine := by
  have hlx : l.top ≠ some x := fun heq => hn.notLeft.2 (Shape.top_mem heq)
  have hrx : rr.top ≠ some x := fun heq => hn.notRight.2 (Shape.top_mem heq)
  have hlp : l.top ≠ some p := fun heq => hn.notLeft.1 (Shape.top_mem heq)
  have hrp : rr.top ≠ some p := fun heq => hn.notRight.1 (Shape.top_mem heq)
  have hx : (Path.plug spine (Shape.node .leaf p cs rr)).top ≠ some x :=
    top_plug_ne rfl hn.notSpine.2 hn.ne.symm
  constructor
  · simp [exchanged_parent,hlx,hrx,hx]
  · cases spine with
    | nil => simp [exchanged_parent,Path.plug,Shape.top,Path.parent]
    | cons f rest =>
      have hp : (Path.plug (f :: rest) (Shape.node .leaf p cs rr)).top ≠ some p := by
        rw [Path.top_plug,if_neg (List.cons_ne_nil f rest)]
        exact fun heq => hn.notSpine.1 (Path.outer_mem heq)
      simp [exchanged_parent,hlp,hrp,hp,hn.ne]

/-- The two nodes have changed places. -/
theorem NextTo.exchanged_holds
    (hh : h.Holds t (Path.plug path (.node l p c (Path.plug spine (.node .leaf x cs rr))))) :
    (exchanged h t path spine p x l.top rr.top
      (Path.plug spine (.node .leaf p cs rr)).top).Holds t
      (Path.plug path (.node l x c (Path.plug spine (.node .leaf p cs rr)))) := by
  have hne : ∀ z ∈ Path.ids path, z ≠ p ∧ z ≠ x := fun z hz =>
    ⟨fun heq => hn.notPath.1 (heq ▸ hz),fun heq => hn.notPath.2 (heq ▸ hz)⟩
  obtain ⟨hpl,hpr,hxl,hxr⟩ := hn.children (t := t) (.node .leaf p cs rr) rfl
  obtain ⟨hparx,hparp⟩ := hn.exchanged_nodes (t := t)
  apply hh.refill
  · intro z hz s
    have hspine : Path.hole spine ≠ some (s,z) := Path.hole_ne fun hmem => hn.pathApart hz hmem
    rw [exchanged_child_of_ne (hne z hz).1 (hne z hz).2 hn.side,if_neg hspine,setHole_child]
    rfl
  · intro z hz
    have hl : l.top ≠ some z := fun htop => hn.leftApart.1 (Shape.top_mem htop) hz
    have hrr : rr.top ≠ some z := fun htop => hn.rightApart.1 (Shape.top_mem htop) hz
    exact exchanged_parent_of_ne (top_plug_ne rfl (hn.pathApart hz) (hne z hz).1) hl hrr
      (hne z hz).2 (hne z hz).1
  · intro z hz
    rw [exchanged_mark,if_neg (hne z hz).2,if_neg (hne z hz).1]
  · rw [exchanged_root]
    rfl
  · refine ⟨hparx,?_,?_,?_,hn.exchanged_left,linked_plug.mpr ⟨hn.exchanged_spine,hparp,?_,?_,?_,
      trivial,hn.exchanged_right⟩⟩
    · rw [exchanged_mark,if_pos rfl,hn.mark]
    · rw [exchanged_child,hxl]
    · rw [exchanged_child,hxr]
    · rw [exchanged_mark,if_neg hn.ne,if_pos rfl,hn.markNext]
    · rw [exchanged_child,hpl]
      rfl
    · rw [exchanged_child,hpr]
  · have hperm : (Path.plug path (.node l x c (Path.plug spine (.node .leaf p cs rr)))).ids.Perm
        (Path.plug path (.node l p c (Path.plug spine (.node .leaf x cs rr)))).ids := by
      rw [Path.ids_plug,Path.ids_plug]
      apply List.Perm.append_right
      apply List.Perm.append_left
      apply List.Perm.append_left
      rw [Path.ids_plug,Path.ids_plug,Path.before_eq_nil hn.side]
      exact List.Perm.swap p x (rr.ids ++ Path.after spine)
    exact hperm.nodup_iff.mpr hh.nodup

theorem NextTo.exchanged_within :
    h.Within (exchanged h t path spine p x l.top rr.top
      (Path.plug spine (.node .leaf p cs rr)).top) t
      (Path.plug path (.node l p c (Path.plug spine (.node .leaf x cs rr)))).ids := by
  apply within_of_sameOn
  · intro z hz
    simp only [Path.mem_ids_plug,Shape.ids,List.mem_append,List.mem_cons,List.not_mem_nil,
      false_or,not_or] at hz
    obtain ⟨hzpath,hzl,hzp,hzspine,hzx,hzrr⟩ := hz
    have hl : l.top ≠ some z := fun htop => hzl (Shape.top_mem htop)
    have hrr : rr.top ≠ some z := fun htop => hzrr (Shape.top_mem htop)
    refine ⟨?_,?_,?_⟩
    · intro w hw s
      obtain rfl := List.mem_singleton.mp hw
      rw [exchanged_child_of_ne hzp hzx hn.side,if_neg (Path.hole_ne hzpath),
        if_neg (Path.hole_ne hzspine)]
    · intro w hw
      obtain rfl := List.mem_singleton.mp hw
      exact exchanged_parent_of_ne (top_plug_ne rfl hzspine hzp) hl hrr hzx hzp
    · intro w hw
      obtain rfl := List.mem_singleton.mp hw
      rw [exchanged_mark,if_neg hzx,if_neg hzp]
  · intro j hj
    simp [exchanged_root,hj]

end

end Exchange

section Unlink

variable {u : Shape EntryId P} {p : EntryId}

theorem replaceLink_eq {near far : Shape EntryId P} {v : Option EntryId}
    (hh : h.Holds t (Path.plug path (.facing s near p c far))) :
    replaceLink h t p v = some (h.setHole t path v) := by
  have hparent := hh.node.1
  have haround := hh.around
  rw [Shape.top_facing] at haround
  obtain ⟨-,-,hdisjoint⟩ := Path.nodup_plug.mp hh.nodup
  have hnot : p ∉ Path.ids path := hdisjoint (by simp)
  cases path with
  | nil =>
    have hroot : h.root t = some p := by
      rw [hh.root]
      simp [Path.plug]
    simp [replaceLink,hparent,Path.parent,hroot,setHole]
  | cons f rest =>
    obtain ⟨-,-,hhole,hother,-⟩ := haround
    have hne : h.child f.side.other f.a ≠ some p := by
      rw [hother]
      intro htop
      exact hnot (by simp [Shape.top_mem htop])
    rcases hside : f.side with _ | _
    · rw [hside] at hhole
      simp [replaceLink,hparent,Path.parent,hhole,setHole,hside]
    · rw [hside] at hhole hne
      simp only [Side.other] at hne
      simp [replaceLink,hparent,Path.parent,hhole,hne,setHole,hside]

theorem onlyChild_eq (hh : h.Holds t (Path.plug path (.facing s .leaf p c u))) :
    onlyChild h p = u.top := by
  obtain ⟨-,-,hnear,hfar⟩ := hh.node
  have hleaf : (Shape.leaf : Shape EntryId P).top = none := rfl
  rw [hleaf] at hnear
  cases s with
  | left =>
    simp only [Side.other] at hfar
    rw [onlyChild,hfar,hnear]
    cases u.top <;> rfl
  | right =>
    simp only [Side.other] at hfar
    rw [onlyChild,hfar,hnear]
    rfl

theorem unlinkNode_holds (hh : h.Holds t (Path.plug path (.facing s .leaf p c u))) :
    ∃ h', unlinkNode h t p = some h' ∧ h'.Holds t (Path.plug path u) ∧
      h.Within h' t (Path.plug path (.facing s .leaf p c u)).ids ∧ h'.mark p = h.mark p ∧
      h'.parent p = h.parent p := by
  have hunlink : unlinkNode h t p =
      some ((h.setHole t path u.top).setParentOf u.top (Path.parent none path)) := by
    have hlink := replaceLink_eq (v := u.top) hh
    have hparent := hh.node.1
    simp [unlinkNode,onlyChild_eq hh,hlink,hparent]
  obtain ⟨hpath,hnodup,hdisjoint⟩ := Path.nodup_plug.mp hh.nodup
  obtain ⟨-,hpu,-,hu,-⟩ := Shape.nodup_facing.mp hnodup
  obtain ⟨-,-,-,-,-,hlu⟩ := linked_facing.mp hh.inside
  have hup : u.ids.Disjoint (Path.ids path) := fun z hz => hdisjoint (by simp [hz])
  have hutop : u.top ≠ some p := fun htop => hpu (Shape.top_mem htop)
  refine ⟨_,hunlink,?_,?_,by simp,by simp [hutop]⟩
  · apply hh.refill
    · intro z _ s'
      simp
    · intro z hz
      have htop : u.top ≠ some z := fun htop => hup (Shape.top_mem htop) hz
      simp [htop]
    · intro z _
      simp
    · simp
    · apply hlu.reparent
      · intro z hz s'
        simp [Path.hole_ne (hup hz)]
      · intro z _
        simp
      · intro z _ htop
        simp [htop]
      · intro z htop
        simp [htop]
      · exact hu
    · exact Path.nodup_plug.mpr ⟨hpath,hu,hup⟩
  · apply within_of_sameOn
    · intro z hz
      rw [Path.mem_ids_plug] at hz
      simp only [Shape.mem_ids_facing,not_or] at hz
      apply (sameOn_setHole (by simpa using hz.1)).trans
      apply sameOn_setParentOf
      intro w hw hmem
      exact hz.2.2.2 (List.mem_singleton.mp hmem ▸ Shape.top_mem hw)
    · intro j hj
      simp [hj]

end Unlink

end Jancy.Stdt.TreeNodes
