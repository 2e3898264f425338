import Mathlib.Data.List.Basic

/-! Marking with a list of pending items: visiting an item marks it and may ask for others. A mark
for one item holds for every weaker item too. -/
namespace Worklist

variable {σ α ε : Type*}

/-- Visit the pending items from left to right, as often as there are turns. -/
def run (visit : σ → α → Except ε (σ × List α)) : ℕ → σ → List α → Except ε (σ × List α)
  | 0,marks,pending => .ok (marks,pending)
  | _ + 1,marks,[] => .ok (marks,[])
  | turns + 1,marks,item :: pending =>
    match visit marks item with
    | .error error => .error error
    | .ok (marks',asked) => run visit turns marks' (pending ++ asked)

/-- What the roots need, directly or through others, and whatever is weaker. -/
inductive Required (le : α → α → Prop) (needs : α → List α) (roots : List α) : α → Prop where
  | root {item : α} (hroot : item ∈ roots) : Required le needs roots item
  | need {item other : α} (hitem : Required le needs roots item) (hother : other ∈ needs item) :
    Required le needs roots other
  | weaken {item other : α} (hitem : Required le needs roots item) (hle : le other item) :
    Required le needs roots other

structure Visited (holds : σ → α → Prop) (le : α → α → Prop) (needs : α → List α) (marks : σ)
    (item : α) (marks' : σ) (asked : List α) : Prop where
  marked : holds marks' item
  kept : ∀ other, holds marks other → holds marks' other
  only : ∀ other, holds marks' other → holds marks other ∨ le other item
  asked_needed : ∀ other ∈ asked, other ∈ needs item
  needed_asked : ∀ other, holds marks' other → ¬ holds marks other →
    ∀ next ∈ needs other, holds marks' next ∨ ∃ stronger ∈ asked, le next stronger

/-- Every visit of a valid item does what it has to do, and asks for nothing unless it makes
progress. -/
structure Marks (visit : σ → α → Except ε (σ × List α)) (holds : σ → α → Prop)
    (le : α → α → Prop) (needs : α → List α) (valid : α → Prop) (left : σ → ℕ) : Prop where
  refl : ∀ item, le item item
  weaker : ∀ marks item other, holds marks item → le other item → holds marks other
  needs_valid : ∀ item, valid item → ∀ other ∈ needs item, valid other
  visits : ∀ marks item, valid item → ∃ marks' asked, visit marks item = .ok (marks',asked) ∧
    Visited holds le needs marks item marks' asked ∧
      (left marks' < left marks ∨ left marks' = left marks ∧ asked = [])

/-- Marked, or about to be. -/
def Covered (holds : σ → α → Prop) (le : α → α → Prop) (marks : σ) (pending : List α) (item : α) :
    Prop :=
  holds marks item ∨ ∃ stronger ∈ pending, le item stronger

structure Inv (holds : σ → α → Prop) (le : α → α → Prop) (needs : α → List α) (valid : α → Prop)
    (roots : List α) (marks : σ) (pending : List α) : Prop where
  marked_required : ∀ item, holds marks item → Required le needs roots item
  pending_required : ∀ item ∈ pending, Required le needs roots item
  pending_valid : ∀ item ∈ pending, valid item
  roots_covered : ∀ item ∈ roots, Covered holds le marks pending item
  needs_covered : ∀ item, holds marks item → ∀ other ∈ needs item,
    Covered holds le marks pending other

variable {visit : σ → α → Except ε (σ × List α)} {holds : σ → α → Prop} {le : α → α → Prop}
  {needs : α → List α} {valid : α → Prop} {left : σ → ℕ} {roots : List α}

variable {marks : σ}

theorem Inv.init (hmarks : Marks visit holds le needs valid left)
    (hnone : ∀ item, ¬ holds marks item) (hvalid : ∀ item ∈ roots, valid item) :
    Inv holds le needs valid roots marks roots where
  marked_required item hitem := absurd hitem (hnone item)
  pending_required _ hitem := .root hitem
  pending_valid := hvalid
  roots_covered item hitem := .inr ⟨item,hitem,hmarks.refl item⟩
  needs_covered item hitem := absurd hitem (hnone item)

theorem Visited.already {item : α} (hitem : holds marks item) :
    Visited holds le needs marks item marks [] where
  marked := hitem
  kept _ hother := hother
  only _ hother := .inl hother
  asked_needed _ hother := absurd hother List.not_mem_nil
  needed_asked _ hother hnot := absurd hother hnot

section

variable (hmarks : Marks visit holds le needs valid left)

include hmarks

theorem Covered.visited {marks marks' : σ} {item other : α} {pending asked : List α}
    (hvisited : Visited holds le needs marks item marks' asked)
    (hcovered : Covered holds le marks (item :: pending) other) :
    Covered holds le marks' (pending ++ asked) other := by
  rcases hcovered with hold | ⟨stronger,hmem,hle⟩
  · exact .inl (hvisited.kept other hold)
  · rcases List.mem_cons.mp hmem with rfl | hpending
    · exact .inl (hmarks.weaker marks' stronger other hvisited.marked hle)
    · exact .inr ⟨stronger,List.mem_append_left asked hpending,hle⟩

theorem Inv.visited {marks marks' : σ} {item : α} {pending asked : List α}
    (hinv : Inv holds le needs valid roots marks (item :: pending))
    (hvisited : Visited holds le needs marks item marks' asked) :
    Inv holds le needs valid roots marks' (pending ++ asked) := by
  have hitem := hinv.pending_required item List.mem_cons_self
  have hvalid := hinv.pending_valid item List.mem_cons_self
  constructor
  case marked_required =>
    intro other hother
    rcases hvisited.only other hother with hold | hle
    · exact hinv.marked_required other hold
    · exact .weaken hitem hle
  case pending_required =>
    intro other hother
    rcases List.mem_append.mp hother with hpending | hasked
    · exact hinv.pending_required other (List.mem_cons_of_mem item hpending)
    · exact .need hitem (hvisited.asked_needed other hasked)
  case pending_valid =>
    intro other hother
    rcases List.mem_append.mp hother with hpending | hasked
    · exact hinv.pending_valid other (List.mem_cons_of_mem item hpending)
    · exact hmarks.needs_valid item hvalid other (hvisited.asked_needed other hasked)
  case roots_covered =>
    intro other hother
    exact (hinv.roots_covered other hother).visited hmarks hvisited
  case needs_covered =>
    intro other hother next hnext
    by_cases hold : holds marks other
    · exact (hinv.needs_covered other hold next hnext).visited hmarks hvisited
    · rcases hvisited.needed_asked other hother hold next hnext with hmarked | ⟨stronger,hmem,hle⟩
      · exact .inl hmarked
      · exact .inr ⟨stronger,List.mem_append_right pending hmem,hle⟩

theorem Inv.holds_iff (hinv : Inv holds le needs valid roots marks []) (item : α) :
    holds marks item ↔ Required le needs roots item := by
  have hcovered : ∀ other, Covered holds le marks [] other → holds marks other := by
    rintro other (hother | ⟨stronger,hmem,-⟩)
    · exact hother
    · simp at hmem
  constructor
  · exact hinv.marked_required item
  · intro hrequired
    induction hrequired with
    | root hroot => exact hcovered _ (hinv.roots_covered _ hroot)
    | need _ hother ih => exact hcovered _ (hinv.needs_covered _ ih _ hother)
    | weaken _ hle ih => exact hmarks.weaker marks _ _ ih hle

theorem run_of_inv {pending : List α} (hinv : Inv holds le needs valid roots marks pending) :
    ∃ turns marks', run visit turns marks pending = .ok (marks',[]) ∧
      Inv holds le needs valid roots marks' [] := by
  induction hleft : left marks using Nat.strongRecOn generalizing marks pending with
  | ind _ ihleft =>
    induction pending generalizing marks with
    | nil => exact ⟨0,marks,rfl,hinv⟩
    | cons item pending ih =>
      have hvalid := hinv.pending_valid item List.mem_cons_self
      obtain ⟨marks',asked,hvisit,hvisited,hprogress⟩ := hmarks.visits marks item hvalid
      have hinv' := hinv.visited hmarks hvisited
      have hrest : ∃ turns marks'', run visit turns marks' (pending ++ asked) = .ok (marks'',[]) ∧
          Inv holds le needs valid roots marks'' [] := by
        rcases hprogress with hlt | ⟨heq,rfl⟩
        · exact ihleft _ (hleft ▸ hlt) hinv' rfl
        · rw [List.append_nil] at hinv' ⊢
          exact ih hinv' (heq.trans hleft)
      obtain ⟨turns,marks'',hrun,hdone⟩ := hrest
      refine ⟨turns + 1,marks'',?_,hdone⟩
      rw [run,hvisit]
      exact hrun

theorem run_ends (hnone : ∀ item, ¬ holds marks item) (hvalid : ∀ item ∈ roots, valid item) :
    ∃ turns marks', run visit turns marks roots = .ok (marks',[]) ∧
      ∀ item, holds marks' item ↔ Required le needs roots item := by
  obtain ⟨turns,marks',hrun,hinv⟩ := run_of_inv hmarks (Inv.init hmarks hnone hvalid)
  exact ⟨turns,marks',hrun,hinv.holds_iff hmarks⟩

end

end Worklist
