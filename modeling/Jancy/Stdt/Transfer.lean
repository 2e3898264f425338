import Jancy.Std.ListRun
import Jancy.Stdt.HashTableRun
import Jancy.Stdt.List
import Jancy.Stdt.RbTreeRun

/-! Transfers between containers: `takeOver` moves entries, but neither the comparator of a tree nor
the hash function and the equality of a table. -/
namespace Jancy.Stdt

/-- Where entries, places and bucket counts are in order, every call of a program over hash tables,
trees and lists is served if and only if every transfer is from a container that compares and hashes
in the same way, not from itself to itself unnoticed, and for `std.List` to an empty list. -/
theorem transfers_served_iff (K V : Type) [Inhabited K] [Inhabited V] (asserts : Bool) :
    (∀ (hash : TableId → K → ℕ) (eq : TableId → K → K → Bool),
      (∀ t, Agrees (hash t) (eq t)) → ∀ calls : List (HashCall K V),
      Run.Before (fun h => h.step asserts) HashHeap.InPlace (.initial hash eq) calls →
      (Run.Through (fun h => h.step asserts) (HashHeap.Serves asserts) (.initial hash eq) calls ↔
        Run.Before (fun h => h.step asserts) (HashHeap.TransferOk asserts) (.initial hash eq)
          calls)) ∧
    (∀ cmp : TableId → K → K → Bool, (∀ t, RbHeap.StrictWeak (cmp t)) →
      ∀ calls : List (DictCall K V),
      Run.Before (fun h => RbHeap.step h asserts) RbHeap.InPlace (RbHeap.initial cmp) calls →
      (Run.Through (fun h => RbHeap.step h asserts) (RbHeap.Serves asserts) (RbHeap.initial cmp)
          calls ↔
        Run.Before (fun h => RbHeap.step h asserts) (RbHeap.TransferOk asserts)
          (RbHeap.initial cmp) calls)) ∧
    (∀ calls : List ListCall,
      Run.Before (ListHeap.step asserts) ListHeap.InPlace .empty calls →
      (Run.Through (ListHeap.step asserts) (ListHeap.Serves asserts) .empty calls ↔
        Run.Before (ListHeap.step asserts) (ListHeap.TransferOk asserts) .empty calls)) ∧
    (∀ calls : List (Jancy.Std.ListCall V),
      Run.Before Jancy.Std.ListHeap.step Jancy.Std.ListHeap.InPlace .initial calls →
      (Run.Through Jancy.Std.ListHeap.step Jancy.Std.ListHeap.Serves .initial calls ↔
        Run.Before Jancy.Std.ListHeap.step Jancy.Std.ListHeap.TransferOk .initial calls)) := by
  refine ⟨?_,?_,?_,?_⟩
  · exact fun hash eq hag calls hplace => HashHeap.served_iff hag hplace
  · exact fun cmp hlt calls hplace => RbHeap.served_iff hlt hplace
  · exact fun calls hplace => ListHeap.served_iff asserts hplace
  · exact fun calls hplace => Jancy.Std.ListHeap.served_iff hplace

/-- Containers that hash and compare in the same way, and a list that is still empty. -/
theorem transfers_served_alike :
    Run.Through (fun h => h.step false) (HashHeap.Serves (V := ℕ) false)
      (.initial (fun _ k => k % 32) fun _ (k k' : ℕ) => k == k')
      [.dict (.visit 1 7),.dict (.takeOver 0 1)] ∧
    Run.Through (fun h => RbHeap.step h false) (RbHeap.Serves (V := ℕ) false)
      (RbHeap.initial fun _ (k k' : ℕ) => decide (k < k')) [.visit 1 7,.takeOver 0 1] ∧
    Run.Through (ListHeap.step false) (ListHeap.Serves false) .empty [.takeOver 0 1] ∧
    Run.Through Jancy.Std.ListHeap.step Jancy.Std.ListHeap.Serves .initial
      [.insertTail 1 (5 : ℕ),.takeOver 0 (some 1)] := by
  have ⟨htables,htrees,hlists,hstdLists⟩ := transfers_served_iff ℕ ℕ false
  refine ⟨(htables _ _ ?_ _ ?_).mpr ?_,(htrees _ ?_ _ ?_).mpr ?_,(hlists _ ?_).mpr ?_,
    (hstdLists _ ?_).mpr ?_⟩
  · exact fun _ => HashHeap.agrees_mod 32
  · exact ⟨trivial,trivial,trivial⟩
  · exact ⟨trivial,⟨rfl,fun _ _ => rfl⟩,trivial⟩
  · exact fun _ => RbHeap.strictWeak_lt
  · exact ⟨trivial,trivial,trivial⟩
  · exact ⟨trivial,rfl,trivial⟩
  · exact ⟨⟨_,LinkedLists.empty_represents,rfl,nofun⟩,trivial⟩
  · exact ⟨nofun,trivial⟩
  · exact ⟨rfl,trivial,trivial⟩
  · exact ⟨trivial,rfl,trivial⟩

/-- Keys of tree 1 are in descending order. -/
def byTree (t : TableId) (k k' : ℕ) : Bool := if t = 0 then decide (k < k') else decide (k' < k)

/-- A tree looks for the keys it has taken over in the wrong order, and an entry that a list has
dropped can still be removed from it. -/
theorem not_transfers_served :
    ¬ Run.Through (fun h => RbHeap.step h false) (RbHeap.Serves (V := ℕ) false)
      (RbHeap.initial byTree) [.visit 1 1,.visit 1 2,.takeOver 0 1] ∧
    ¬ Run.Through Jancy.Std.ListHeap.step Jancy.Std.ListHeap.Serves .initial
      [.insertTail 0 (5 : ℕ),.insertTail 1 6,.takeOver 0 (some 1)] := by
  constructor
  · rintro ⟨h₁,hvisit,-,h₂,hvisit',-,h₃,-,hserves,-⟩
    obtain rfl := Option.some.inj hvisit
    obtain rfl := Option.some.inj hvisit'
    have hcmp := RbHeap.takeOver_needs (by decide) hserves
    exact absurd (congrFun (congrFun hcmp 1) 2) (by decide)
  · rintro ⟨h₁,hinsert,-,h₂,hinsert',-,h₃,htake,⟨-,-,-,-,hdetaches⟩,-⟩
    cases hinsert
    cases hinsert'
    cases htake
    exact absurd (hdetaches 0) (by decide)

/-- The key 2 is on the tree, and is not found. -/
example : (Run.exec (fun h => RbHeap.step h false) (RbHeap.initial (V := ℕ) byTree)
    [.visit 1 1,.visit 1 2,.takeOver 0 1]).map (fun h => (h.entriesOf 0,h.find 0 2)) =
      some ([1,0],some none) := by decide

end Jancy.Stdt
