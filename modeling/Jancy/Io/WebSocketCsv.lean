import Mathlib.Data.List.DropRight
import Mathlib.Tactic.Ring

/-! The search for a token in a list of comma-separated elements. The operations on strings are not
part of the repository, nor is what a substring from an offset past the end is. -/
namespace Jancy.Io.WebSocketCsv

/-- The functions of the string library that the search calls. An offset past the end of a string
fails an assertion or gives the empty string. -/
structure StringLib where
  isSpace : Char → Bool
  toLower : Char → Char
  getSubString : List Char → ℕ → Option (List Char)
  inside : ∀ s offset, offset ≤ s.length → getSubString s offset = some (s.drop offset)
  past : ∀ s offset, s.length < offset →
    getSubString s offset = none ∨ getSubString s offset = some []

namespace StringLib

variable (lib : StringLib)

def getLeftTrimmedString (s : List Char) : List Char := s.dropWhile lib.isSpace

def getRightTimmedString (s : List Char) : List Char := s.rdropWhile lib.isSpace

/-- `cmpIgnoreCase(value) == 0` -/
def equalIgnoreCase (s value : List Char) : Bool := s.map lib.toLower = value.map lib.toLower

variable (c : Char) (value : List Char)

/-- The text of a string up to the first delimiter is compared without the spaces before it, the
last text as it is. -/
def stands (s : List Char) : Bool :=
  match s.findIdx? (· = c) with
  | none => lib.equalIgnoreCase s value
  | some delim => lib.equalIgnoreCase (lib.getRightTimmedString (s.take delim)) value

/-- The loop. The outer `none` is a failed assertion, the inner one the result `-1`. -/
def findLoop : ℕ → ℕ → List Char → Option (Option ℕ)
  | 0, _, _ => none
  | n + 1, i, s =>
      match s.findIdx? (· = c) with
      | none => some (if lib.equalIgnoreCase s value then some i else none)
      | some delim =>
          if lib.equalIgnoreCase (lib.getRightTimmedString (s.take delim)) value then some (some i)
          else
            match lib.getSubString s (i + 1) with
            | none => none
            | some rest => findLoop n (i + 1) (lib.getLeftTrimmedString rest)

def findInCsvStringIgnoreCase (s : List Char) : Option (Option ℕ) :=
  lib.findLoop c value (s.length + 1) 0 s

def trim (s : List Char) : List Char := lib.getLeftTrimmedString (lib.getRightTimmedString s)

/-- The index of the first element that is the token, without the spaces around it. -/
def firstElement (s : List Char) : Option ℕ :=
  (s.splitOn c).findIdx? fun element => lib.equalIgnoreCase (lib.trim element) value

/-- A turn drops as many characters as there have been turns, and the spaces behind them. It is
the last one if there is no delimiter. -/
def turn (i : ℕ) (s : List Char) : Option (List Char) :=
  if c ∈ s then (lib.getSubString s (i + 1)).map lib.getLeftTrimmedString else none

/-- What is left for the turn `i + k` of the loop. -/
def restart (i : ℕ) (s : List Char) : ℕ → Option (List Char)
  | 0 => some s
  | k + 1 => (restart i s k).bind (lib.turn c (i + k))

/-- The token stands at the start of a turn, and not at that of an earlier one. -/
def FirstStands (i : ℕ) (s : List Char) (k : ℕ) : Prop :=
  (∃ r, lib.restart c i s k = some r ∧ lib.stands c value r = true) ∧
    ∀ j < k, ∀ r, lib.restart c i s j = some r → lib.stands c value r = false

/-- The token stands at the start of no turn, and no turn drops more than there is. -/
def NeverStands (i : ℕ) (s : List Char) : Prop :=
  ∀ k r, lib.restart c i s k = some r → lib.stands c value r = false ∧
    (c ∈ r → (lib.getSubString r (i + k + 1)).isSome)

variable {lib c value} {n i : ℕ} {s r : List Char}

theorem findIdx?_none : s.findIdx? (· = c) = none ↔ c ∉ s := by
  rw [List.findIdx?_eq_none_iff]
  constructor
  · intro h hc
    exact of_decide_eq_false (h c hc) rfl
  · intro h x hx
    exact decide_eq_false fun heq => h (heq ▸ hx)

theorem restart_succ (k : ℕ) : lib.restart c i s (k + 1) =
    (lib.turn c i s).bind fun r => lib.restart c (i + 1) r k := by
  induction k with
  | zero =>
    show lib.turn c i s = _
    cases lib.turn c i s <;> rfl
  | succ k ih =>
    rw [restart,ih,Option.bind_assoc]
    have hshift : i + (k + 1) = i + 1 + k := by omega
    rw [hshift]
    rfl

theorem getSubString_eq_drop {offset : ℕ} (h : lib.getSubString s offset = some r) :
    r = s.drop offset := by
  cases Nat.lt_or_ge s.length offset with
  | inr hle =>
    rw [lib.inside s _ hle] at h
    exact (Option.some.inj h).symm
  | inl hlt =>
    rw [List.drop_eq_nil_of_le (Nat.le_of_lt hlt)]
    cases lib.past s _ hlt with
    | inl hnone =>
      rw [hnone] at h
      cases h
    | inr hnil =>
      rw [hnil] at h
      exact (Option.some.inj h).symm

theorem length_turn (h : lib.turn c i s = some r) : r.length < s.length := by
  unfold turn at h
  split at h
  · rename_i hc
    obtain ⟨r,hr,rfl⟩ := Option.map_eq_some_iff.mp h
    have hpos : 0 < s.length := List.length_pos_of_mem hc
    refine Nat.lt_of_le_of_lt (List.dropWhile_sublist _).length_le ?_
    rw [getSubString_eq_drop hr,List.length_drop]
    omega
  · cases h

theorem findLoop_succ : lib.findLoop c value (n + 1) i s =
    if lib.stands c value s then some (some i)
    else if c ∈ s then (lib.turn c i s).bind (lib.findLoop c value n (i + 1))
    else some none := by
  rw [findLoop]
  unfold stands turn
  cases hfind : s.findIdx? (· = c) with
  | none =>
    have hc := findIdx?_none.mp hfind
    dsimp only
    rw [if_neg hc]
    split <;> rfl
  | some delim =>
    have hc : c ∈ s := by
      by_contra hc
      rw [findIdx?_none.mpr hc] at hfind
      cases hfind
    dsimp only
    rw [if_pos hc,if_pos hc]
    split
    · rfl
    · cases lib.getSubString s (i + 1) <;> rfl

theorem firstStands_zero : lib.FirstStands c value i s 0 ↔ lib.stands c value s = true := by
  constructor
  · rintro ⟨⟨r,hr,hstands⟩,-⟩
    cases hr
    exact hstands
  · intro h
    exact ⟨⟨s,rfl,h⟩,fun j hj => absurd hj (Nat.not_lt_zero j)⟩

theorem firstStands_succ {k : ℕ} : lib.FirstStands c value i s (k + 1) ↔
    lib.stands c value s = false ∧
      ∃ r, lib.turn c i s = some r ∧ lib.FirstStands c value (i + 1) r k := by
  constructor
  · rintro ⟨⟨r,hr,hstands⟩,hearlier⟩
    rw [restart_succ] at hr
    obtain ⟨r₁,hturn,hr₁⟩ := Option.bind_eq_some_iff.mp hr
    refine ⟨hearlier 0 (Nat.succ_pos k) s rfl,r₁,hturn,⟨r,hr₁,hstands⟩,fun j hj r' hr' => ?_⟩
    refine hearlier (j + 1) (Nat.succ_lt_succ hj) r' ?_
    rw [restart_succ,hturn]
    exact hr'
  · rintro ⟨hno,r₁,hturn,⟨r,hr₁,hstands⟩,hearlier⟩
    refine ⟨⟨r,?_,hstands⟩,fun j hj r' hr' => ?_⟩
    · rw [restart_succ,hturn]
      exact hr₁
    · cases j with
      | zero =>
        cases hr'
        exact hno
      | succ j =>
        rw [restart_succ,hturn] at hr'
        exact hearlier j (Nat.lt_of_succ_lt_succ hj) r' hr'

theorem neverStands_iff : lib.NeverStands c value i s ↔
    lib.stands c value s = false ∧
      (c ∈ s → ∃ r, lib.turn c i s = some r ∧ lib.NeverStands c value (i + 1) r) := by
  constructor
  · intro h
    refine ⟨(h 0 s rfl).1,fun hc => ?_⟩
    obtain ⟨sub,hsub⟩ := Option.isSome_iff_exists.mp ((h 0 s rfl).2 hc)
    have hturn : lib.turn c i s = some (lib.getLeftTrimmedString sub) := by
      rw [turn,if_pos hc]
      exact congrArg (Option.map lib.getLeftTrimmedString) hsub
    refine ⟨_,hturn,fun k r hr => ?_⟩
    have hlater : lib.restart c i s (k + 1) = some r := by
      rw [restart_succ,hturn]
      exact hr
    have hshift : i + (k + 1) + 1 = i + 1 + k + 1 := by omega
    rw [← hshift]
    exact h (k + 1) r hlater
  · rintro ⟨hno,hrest⟩ k r hr
    cases k with
    | zero =>
      cases hr
      refine ⟨hno,fun hc => ?_⟩
      obtain ⟨r,hturn,-⟩ := hrest hc
      rw [turn,if_pos hc] at hturn
      obtain ⟨sub,hsub,-⟩ := Option.map_eq_some_iff.mp hturn
      rw [Nat.add_zero,hsub]
      rfl
    | succ k =>
      rw [restart_succ] at hr
      obtain ⟨r₁,hturn,hr₁⟩ := Option.bind_eq_some_iff.mp hr
      have hc : c ∈ s := by
        by_contra hc
        rw [turn,if_neg hc] at hturn
        cases hturn
      obtain ⟨r₂,hturn₂,hnever⟩ := hrest hc
      rw [hturn] at hturn₂
      cases hturn₂
      have hshift : i + (k + 1) + 1 = i + 1 + k + 1 := by omega
      rw [hshift]
      exact hnever k r hr₁

/-- With enough turns the loop ends where the token first stands. -/
theorem findLoop_iff (hn : s.length < n) :
    (∀ k, lib.findLoop c value n i s = some (some k) ↔
      ∃ j, k = i + j ∧ lib.FirstStands c value i s j) ∧
    (lib.findLoop c value n i s = some none ↔ lib.NeverStands c value i s) := by
  induction n generalizing i s with
  | zero => exact absurd hn (Nat.not_lt_zero _)
  | succ n ih =>
    rw [findLoop_succ,neverStands_iff]
    cases hstands : lib.stands c value s with
    | true =>
      rw [if_pos rfl]
      refine ⟨fun k => ?_,by simp⟩
      rw [Option.some_inj,Option.some_inj]
      constructor
      · intro heq
        exact ⟨0,heq.symm,firstStands_zero.mpr hstands⟩
      · rintro ⟨j,hk,hfirst⟩
        cases j with
        | zero => exact hk.symm
        | succ j =>
          rw [firstStands_succ,hstands] at hfirst
          exact absurd hfirst.1.symm Bool.false_ne_true
    | false =>
      rw [if_neg Bool.false_ne_true]
      have hzero : ¬ lib.FirstStands c value i s 0 := fun h =>
        absurd (hstands.symm.trans (firstStands_zero.mp h)) Bool.false_ne_true
      split
      · rename_i hc
        cases hturn : lib.turn c i s with
        | none =>
          refine ⟨fun k => iff_of_false nofun ?_,iff_of_false nofun ?_⟩
          · rintro ⟨j,-,hfirst⟩
            cases j with
            | zero => exact hzero hfirst
            | succ j =>
              obtain ⟨-,r,hr,-⟩ := firstStands_succ.mp hfirst
              rw [hturn] at hr
              cases hr
          · rintro ⟨-,hrest⟩
            obtain ⟨r,hr,-⟩ := hrest hc
            cases hr
        | some r =>
          obtain ⟨hfound,hmissing⟩ := ih (i := i + 1) (s := r)
            (Nat.lt_of_lt_of_le (length_turn hturn) (Nat.le_of_lt_succ hn))
          rw [Option.bind_some]
          constructor
          · intro k
            rw [hfound]
            constructor
            · rintro ⟨j,hk,hfirst⟩
              exact ⟨j + 1,by omega,firstStands_succ.mpr ⟨hstands,r,hturn,hfirst⟩⟩
            · rintro ⟨j,hk,hfirst⟩
              cases j with
              | zero => exact absurd hfirst hzero
              | succ j =>
                obtain ⟨-,r',hr',hrest⟩ := firstStands_succ.mp hfirst
                rw [hturn] at hr'
                cases hr'
                exact ⟨j,by omega,hrest⟩
          · rw [hmissing]
            constructor
            · intro hnever
              exact ⟨rfl,fun _ => ⟨r,rfl,hnever⟩⟩
            · rintro ⟨-,hrest⟩
              obtain ⟨r',hr',hnever⟩ := hrest hc
              cases hr'
              exact hnever
      · rename_i hc
        refine ⟨fun k => iff_of_false nofun ?_,iff_of_true rfl ⟨rfl,fun h => absurd h hc⟩⟩
        rintro ⟨j,-,hfirst⟩
        cases j with
        | zero => exact hzero hfirst
        | succ j =>
          obtain ⟨-,r,hr,-⟩ := firstStands_succ.mp hfirst
          rw [turn,if_neg hc] at hr
          cases hr

/-- Where the result is the right one. -/
def Meets (lib : StringLib) (c : Char) (value s : List Char) : Prop :=
  match lib.firstElement c value s with
  | some k => lib.FirstStands c value 0 s k
  | none => lib.NeverStands c value 0 s

/-- The result is the index of the first element that is the token if and only if the token first
stands where the turn with this index starts. -/
theorem findInCsvStringIgnoreCase_iff (lib : StringLib) (c : Char) (value s : List Char) :
    lib.findInCsvStringIgnoreCase c value s = some (lib.firstElement c value s) ↔
      lib.Meets c value s := by
  obtain ⟨hfound,hmissing⟩ :=
    @findLoop_iff lib c value (s.length + 1) 0 s (Nat.lt_succ_self s.length)
  unfold findInCsvStringIgnoreCase Meets
  cases lib.firstElement c value s with
  | none => exact hmissing
  | some k =>
      refine (hfound k).trans ⟨?_,fun h => ⟨k,(Nat.zero_add k).symm,h⟩⟩
      rintro ⟨j,hk,hfirst⟩
      rw [hk,Nat.zero_add]
      exact hfirst

/-- ASCII letters and white space. -/
def asciiLib : StringLib where
  isSpace x := x = ' ' || x = '\t' || x = '\r' || x = '\n'
  toLower := Char.toLower
  getSubString s offset := some (s.drop offset)
  inside _ _ _ := rfl
  past _ _ h := Or.inr (congrArg some (List.drop_eq_nil_of_le (Nat.le_of_lt h)))

/-- The second element is not recognised. -/
theorem keepAlive_upgrade_not_found :
    asciiLib.findInCsvStringIgnoreCase ',' "upgrade".toList "keep-alive, Upgrade".toList =
        some none ∧
      asciiLib.firstElement ',' "upgrade".toList "keep-alive, Upgrade".toList = some 1 := by
  decide

end StringLib
end Jancy.Io.WebSocketCsv
