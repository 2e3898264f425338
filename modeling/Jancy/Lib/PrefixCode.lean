import Mathlib.Data.List.Basic

/-! Words that can be read off the front of a longer text: the word and the rest are determined by
the text. -/
namespace PrefixCode

variable {α σ : Type*}

/-- The words of a code can be split off the front of any text. -/
def PrefixFree (code : α → List σ) : Prop :=
  ∀ a b x y, code a ++ x = code b ++ y → a = b ∧ x = y

theorem prefixFree_of_length {code : α → List σ} (width : ℕ)
    (hwidth : ∀ a, (code a).length = width) (hinj : Function.Injective code) :
    PrefixFree code := by
  intro a b x y h
  have hlength : (code a).length = (code b).length := by rw [hwidth,hwidth]
  obtain ⟨hcode,hrest⟩ := List.append_inj h hlength
  exact ⟨hinj hcode,hrest⟩

theorem append_inj_of_class {isLetter : σ → Prop} {s s' x y : List σ} (hs : ∀ c ∈ s, isLetter c)
    (hs' : ∀ c ∈ s', isLetter c) (hx : ∀ c ∈ x.head?, ¬ isLetter c)
    (hy : ∀ c ∈ y.head?, ¬ isLetter c) (h : s ++ x = s' ++ y) : s = s' ∧ x = y := by
  induction s generalizing s' with
  | nil =>
    cases s' with
    | nil => exact ⟨rfl,h⟩
    | cons c s' =>
      have hhead : c ∈ x.head? := by
        simp only [List.nil_append] at h
        rw [h]
        rfl
      exact absurd (hs' c List.mem_cons_self) (hx c hhead)
  | cons c s ih =>
    cases s' with
    | nil =>
      have hhead : c ∈ y.head? := by
        simp only [List.nil_append] at h
        rw [← h]
        rfl
      exact absurd (hs c List.mem_cons_self) (hy c hhead)
    | cons c' s' =>
      simp only [List.cons_append,List.cons.injEq] at h
      obtain ⟨rfl,h⟩ := h
      obtain ⟨rfl,hrest⟩ := ih (fun c hc => hs c (List.mem_cons_of_mem _ hc))
        (fun c hc => hs' c (List.mem_cons_of_mem _ hc)) h
      exact ⟨rfl,hrest⟩

section Bracketed

variable [DecidableEq σ] (opening closing stop : σ)

/-- Outside of brackets the stop letter does not occur, and every bracket is closed. -/
def Bracketed : ℕ → List σ → Bool
  | depth,[] => depth == 0
  | depth,c :: s =>
    if c = opening then Bracketed (depth + 1) s
    else if c = closing then 0 < depth && Bracketed (depth - 1) s
    else (0 < depth || c ≠ stop) && Bracketed depth s

variable {opening closing stop}

theorem Bracketed.append_inj (hopening : stop ≠ opening) (hclosing : stop ≠ closing) {depth : ℕ}
    {s s' x y : List σ} (hs : Bracketed opening closing stop depth s = true)
    (hs' : Bracketed opening closing stop depth s' = true)
    (h : s ++ stop :: x = s' ++ stop :: y) : s = s' ∧ x = y := by
  induction s generalizing s' depth with
  | nil =>
    cases s' with
    | nil =>
      simp only [List.nil_append,List.cons.injEq,true_and] at h
      exact ⟨rfl,h⟩
    | cons c s' =>
      simp only [List.nil_append,List.cons_append,List.cons.injEq] at h
      obtain ⟨rfl,-⟩ := h
      simp only [Bracketed,beq_iff_eq] at hs
      simp [Bracketed,hopening,hclosing,hs] at hs'
  | cons c s ih =>
    cases s' with
    | nil =>
      simp only [List.nil_append,List.cons_append,List.cons.injEq] at h
      obtain ⟨rfl,-⟩ := h
      simp only [Bracketed,beq_iff_eq] at hs'
      simp [Bracketed,hopening,hclosing,hs'] at hs
    | cons c' s' =>
      simp only [List.cons_append,List.cons.injEq] at h
      obtain ⟨rfl,h⟩ := h
      rw [Bracketed] at hs hs'
      split_ifs at hs hs' with hopen hclose
      · obtain ⟨rfl,hrest⟩ := ih hs hs' h
        exact ⟨rfl,hrest⟩
      · simp only [Bool.and_eq_true] at hs hs'
        obtain ⟨rfl,hrest⟩ := ih hs.2 hs'.2 h
        exact ⟨rfl,hrest⟩
      · simp only [Bool.and_eq_true] at hs hs'
        obtain ⟨rfl,hrest⟩ := ih hs.2 hs'.2 h
        exact ⟨rfl,hrest⟩

end Bracketed

end PrefixCode
