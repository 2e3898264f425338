import Jancy.Lib.Run
import Mathlib.Data.List.Count

/-! The code of a `once` statement, run by any number of threads whose accesses to the flag
interleave. -/
namespace Jancy.Ct.OnceStmt

inductive StorageKind where
  | static
  | tls
  deriving DecidableEq,Repr

/-- The blocks of the statement, by what the thread does next in them. `entry` is the block in front
of the statement. -/
inductive Block where
  | entry
  | loop
  | preBody
  | body
  deriving DecidableEq,Repr

/-- The ways out of the body. -/
inductive Exit where
  | fallThrough
  | break
  | continue
  | return
  | exception
  deriving DecidableEq,Repr

inductive Event where
  | enter (thread : ℕ)
  | exit (thread : ℕ) (kind : Exit)
  | pass (thread : ℕ)
  deriving DecidableEq,Repr

inductive Label where
  | start (thread : ℕ)
  | advance (thread : ℕ)
  | leave (thread : ℕ) (kind : Exit)
  deriving DecidableEq,Repr

def flagCell : StorageKind → ℕ → Option ℕ
  | .static, _ => none
  | .tls, thread => some thread

structure State where
  flag : Option ℕ → ℕ
  /-- The executions of the statement that are under way, the innermost first. -/
  threads : ℕ → List Block
  /-- What has happened so far. -/
  history : List Event

def State.init : State := ⟨fun _ => 0,fun _ => [],[]⟩

/-- One block of `onceStmt_PreBody` with its access to the flag. No block stands for the code that
follows the statement. -/
def preBody (storageKind : StorageKind) (flag : ℕ) : Block → ℕ × Option Block
  | .entry =>
      match storageKind with
      | .tls => (flag,if flag = 0 then some .body else none)
      | .static =>
          (flag,if flag = 0 then some .preBody else if flag = 1 then some .loop else none)
  | .loop => (flag,if flag = 2 then none else some .loop)
  | .preBody => if flag = 0 then (1,some .body) else (flag,some .loop)
  | .body => (flag,some .body)

/-- The flag behind the body. Only the code at its end runs `onceStmt_PostBody`; a jump out of the
body, `escapeScope`, does not. -/
def postBody (flag : ℕ) : Exit → ℕ
  | .fallThrough => 2
  | _ => flag

def eventsOf (thread : ℕ) : Option Block → List Event
  | none => [.pass thread]
  | some .body => [.enter thread]
  | some _ => []

/-- A thread comes to the statement, executes a block, or leaves the body. The body may run the
statement again. -/
def step (storageKind : StorageKind) (s : State) : Label → Option State
  | .start thread =>
      match s.threads thread with
      | [] => some { s with threads := Function.update s.threads thread [.entry] }
      | .body :: outer =>
          some { s with threads := Function.update s.threads thread (.entry :: .body :: outer) }
      | _ => none
  | .advance thread =>
      match s.threads thread with
      | [] => none
      | .body :: _ => none
      | block :: outer =>
          let cell := flagCell storageKind thread
          let next := preBody storageKind (s.flag cell) block
          some
            { flag := Function.update s.flag cell next.1
              threads := Function.update s.threads thread (next.2.toList ++ outer)
              history := s.history ++ eventsOf thread next.2 }
  | .leave thread kind =>
      match s.threads thread with
      | .body :: outer =>
          let cell := flagCell storageKind thread
          some
            { flag := Function.update s.flag cell (postBody (s.flag cell) kind)
              threads := Function.update s.threads thread outer
              history := s.history ++ [.exit thread kind] }
      | _ => none

section Counts

variable (storageKind : StorageKind) (cell : Option ℕ) (history : List Event)

/-- How often a thread has entered the body. -/
def entries : ℕ :=
  history.countP fun
    | .enter thread => flagCell storageKind thread = cell
    | _ => false

/-- How often a thread has left the body. -/
def exits : ℕ :=
  history.countP fun
    | .exit thread _ => flagCell storageKind thread = cell
    | _ => false

/-- How often a thread has gone past the statement without its body. -/
def passes : ℕ :=
  history.countP fun
    | .pass thread => flagCell storageKind thread = cell
    | _ => false

variable (events : List Event)

theorem entries_append : entries storageKind cell (history ++ events) =
    entries storageKind cell history + entries storageKind cell events := List.countP_append

theorem exits_append : exits storageKind cell (history ++ events) =
    exits storageKind cell history + exits storageKind cell events := List.countP_append

theorem passes_append : passes storageKind cell (history ++ events) =
    passes storageKind cell history + passes storageKind cell events := List.countP_append

end Counts

structure Once (storageKind : StorageKind) (s : State) : Prop where
  /-- At most one thread enters, and only once. -/
  entered_once : ∀ cell, entries storageKind cell s.history ≤ 1
  /-- A thread goes past the statement only behind a thread that has left the body. -/
  passed_after_exit :
    ∀ cell, 0 < passes storageKind cell s.history → 0 < exits storageKind cell s.history
  /-- Somebody has entered when a thread at the statement has taken two steps. -/
  entered : ∀ thread run s', Run.exec (step storageKind) s run = some s' →
    2 ≤ run.count (.advance thread) → 0 < entries storageKind (flagCell storageKind thread) s'.history
  /-- Behind the first exit a thread goes past the statement in two steps. -/
  passes_on : ∀ thread, 0 < exits storageKind (flagCell storageKind thread) s.history →
    ∀ run s', Run.exec (step storageKind) s run = some s' → 2 ≤ run.count (.advance thread) →
      s.history.count (.pass thread) < s'.history.count (.pass thread)

/-- The body is left at its end, and a thread with its own flag does not come to the statement again
inside the body. -/
def Proper (storageKind : StorageKind) (s : State) : Label → Prop
  | .start _ => True
  | .advance thread => storageKind = .tls → .body ∉ s.threads thread
  | .leave _ kind => kind = .fallThrough

variable {storageKind : StorageKind} {s s' : State} {thread : ℕ} {cell : Option ℕ}

/-- One thread has new blocks and its flag a new value, and some events have happened. -/
structure Moves (storageKind : StorageKind) (thread flag : ℕ) (blocks : List Block)
    (events : List Event) (s s' : State) : Prop where
  flag : s'.flag (flagCell storageKind thread) = flag
  flag_of_ne : ∀ cell, cell ≠ flagCell storageKind thread → s'.flag cell = s.flag cell
  threads : s'.threads thread = blocks
  threads_of_ne : ∀ other, other ≠ thread → s'.threads other = s.threads other
  history : s'.history = s.history ++ events

theorem step_start (h : step storageKind s (.start thread) = some s') :
    (∀ block ∈ (s.threads thread).head?, block = .body) ∧
      Moves storageKind thread (s.flag (flagCell storageKind thread))
        (.entry :: s.threads thread) [] s s' := by
  have hmoves : Moves storageKind thread (s.flag (flagCell storageKind thread))
      (.entry :: s.threads thread) [] s
      { s with threads := Function.update s.threads thread (.entry :: s.threads thread) } :=
    ⟨rfl,fun _ _ => rfl,Function.update_self _ _ _,fun _ h => Function.update_of_ne h _ _,
      (List.append_nil _).symm⟩
  rw [step] at h
  split at h
  · rename_i hnil
    rw [hnil] at hmoves ⊢
    refine ⟨fun block hblock => absurd hblock (Option.not_mem_none block),?_⟩
    rw [← Option.some.inj h]
    exact hmoves
  · rename_i hbody
    rw [hbody] at hmoves ⊢
    refine ⟨fun block hblock => (Option.some.inj hblock).symm,?_⟩
    rw [← Option.some.inj h]
    exact hmoves
  · cases h

theorem step_advance (h : step storageKind s (.advance thread) = some s') :
    ∃ block outer, s.threads thread = block :: outer ∧ block ≠ .body ∧
      Moves storageKind thread
        (preBody storageKind (s.flag (flagCell storageKind thread)) block).1
        ((preBody storageKind (s.flag (flagCell storageKind thread)) block).2.toList ++ outer)
        (eventsOf thread (preBody storageKind (s.flag (flagCell storageKind thread)) block).2)
        s s' := by
  rw [step] at h
  split at h
  · cases h
  · cases h
  · rename_i block outer hnot hthreads
    refine ⟨block,outer,hthreads,hnot,?_⟩
    rw [← Option.some.inj h]
    exact ⟨Function.update_self _ _ _,fun _ h => Function.update_of_ne h _ _,
      Function.update_self _ _ _,fun _ h => Function.update_of_ne h _ _,rfl⟩

theorem step_leave {kind : Exit} (h : step storageKind s (.leave thread kind) = some s') :
    ∃ outer, s.threads thread = .body :: outer ∧
      Moves storageKind thread (postBody (s.flag (flagCell storageKind thread)) kind) outer
        [.exit thread kind] s s' := by
  rw [step] at h
  split at h
  · rename_i outer hthreads
    refine ⟨outer,hthreads,?_⟩
    rw [← Option.some.inj h]
    exact ⟨Function.update_self _ _ _,fun _ h => Function.update_of_ne h _ _,
      Function.update_self _ _ _,fun _ h => Function.update_of_ne h _ _,rfl⟩
  · cases h

theorem step_history {label : Label} (h : step storageKind s label = some s') :
    ∃ events, s'.history = s.history ++ events := by
  cases label with
  | start thread => exact ⟨_,(step_start h).2.history⟩
  | advance thread =>
    obtain ⟨block,outer,-,-,hmoves⟩ := step_advance h
    exact ⟨_,hmoves.history⟩
  | leave thread kind =>
    obtain ⟨outer,-,hmoves⟩ := step_leave h
    exact ⟨_,hmoves.history⟩

theorem entries_mono {label : Label} (h : step storageKind s label = some s') :
    entries storageKind cell s.history ≤ entries storageKind cell s'.history := by
  obtain ⟨events,hevents⟩ := step_history h
  rw [hevents,entries_append]
  exact Nat.le_add_right _ _

/-- Only a body runs the statement again, and no thread has seen a changed flag before a thread has
entered. A thread does not wait for its own flag. -/
structure Seen (storageKind : StorageKind) (s : State) : Prop where
  outer : ∀ thread, ∀ block ∈ (s.threads thread).tail, block = .body
  flag : ∀ cell, s.flag cell ≠ 0 → 0 < entries storageKind cell s.history
  block : ∀ thread, .loop ∈ s.threads thread ∨ .body ∈ s.threads thread →
    0 < entries storageKind (flagCell storageKind thread) s.history
  tls : storageKind = .tls → ∀ thread, ∀ block ∈ s.threads thread, block = .entry ∨ block = .body

theorem Seen.init : Seen storageKind .init where
  outer _ _ h := absurd h List.not_mem_nil
  flag _ h := absurd rfl h
  block _ h := by
    obtain h | h := h
    · exact absurd h List.not_mem_nil
    · exact absurd h List.not_mem_nil
  tls _ _ _ h := absurd h List.not_mem_nil

theorem preBody_zero {block : Block} (hblock : block ≠ .body) :
    (preBody storageKind 0 block).2 = some .body ∨
      preBody storageKind 0 block = (0,some .preBody) ∧ block = .entry ∨
      preBody storageKind 0 block = (0,some .loop) ∧ block = .loop := by
  cases block with
  | entry => cases storageKind <;> simp [preBody]
  | loop => simp [preBody]
  | preBody => simp [preBody]
  | body => exact absurd rfl hblock

theorem preBody_tls {flag : ℕ} {block : Block} (h : block ∈ (preBody .tls flag .entry).2) :
    block = .body := by
  rw [preBody] at h
  split at h
  · exact (Option.some.inj h).symm
  · cases h

theorem preBody_two {block : Block} (hblock : block ≠ .body) :
    preBody storageKind 2 block = (2,none) ∨
      preBody storageKind 2 block = (2,some .loop) ∧ block = .preBody := by
  cases block with
  | entry => cases storageKind <;> simp [preBody]
  | loop => simp [preBody]
  | preBody => simp [preBody]
  | body => exact absurd rfl hblock

theorem Seen.keep {label : Label} (hs : Seen storageKind s)
    (h : step storageKind s label = some s') : Seen storageKind s' := by
  have hmono : ∀ cell, 0 < entries storageKind cell s.history → 0 < entries storageKind cell s'.history :=
    fun _ hpos => Nat.lt_of_lt_of_le hpos (entries_mono h)
  -- what is left to show of the thread that moves
  have hmoves : ∀ {thread flag blocks events}, Moves storageKind thread flag blocks events s s' →
      (∀ block ∈ blocks.tail, block = .body) →
      (flag ≠ 0 ∨ .loop ∈ blocks ∨ .body ∈ blocks →
        0 < entries storageKind (flagCell storageKind thread) s'.history) →
      (storageKind = .tls → ∀ block ∈ blocks, block = .entry ∨ block = .body) →
      Seen storageKind s' := by
    intro thread flag blocks events hm houter hentered htls
    refine ⟨?_,?_,?_,?_⟩
    · intro t block hblock
      by_cases ht : t = thread
      · rw [ht,hm.threads] at hblock
        exact houter block hblock
      · rw [hm.threads_of_ne t ht] at hblock
        exact hs.outer t block hblock
    · intro c hc
      by_cases hcell : c = flagCell storageKind thread
      · rw [hcell,hm.flag] at hc
        rw [hcell]
        exact hentered (.inl hc)
      · rw [hm.flag_of_ne c hcell] at hc
        exact hmono c (hs.flag c hc)
    · intro t hblock
      by_cases ht : t = thread
      · rw [ht,hm.threads] at hblock
        rw [ht]
        exact hentered (.inr hblock)
      · rw [hm.threads_of_ne t ht] at hblock
        exact hmono _ (hs.block t hblock)
    · intro hkind t block hblock
      by_cases ht : t = thread
      · rw [ht,hm.threads] at hblock
        exact htls hkind block hblock
      · rw [hm.threads_of_ne t ht] at hblock
        exact hs.tls hkind t block hblock
  cases label with
  | start t =>
    obtain ⟨hhead,hm⟩ := step_start h
    refine hmoves hm ?_ ?_ ?_
    · intro block hblock
      rw [List.tail_cons] at hblock
      cases hthreads : s.threads t with
      | nil => simp [hthreads] at hblock
      | cons b outer =>
        rw [hthreads] at hhead hblock
        obtain rfl | hmem := List.mem_cons.mp hblock
        · exact hhead block rfl
        · exact hs.outer t block (by rw [hthreads]; exact hmem)
    · rintro (hflag | hblock)
      · exact hmono _ (hs.flag _ hflag)
      · exact hmono _ (hs.block t (by simpa using hblock))
    · intro hkind block hblock
      obtain rfl | hmem := List.mem_cons.mp hblock
      · exact .inl rfl
      · exact hs.tls hkind t block hmem
  | advance t =>
    obtain ⟨block,outer,hthreads,hblock,hm⟩ := step_advance h
    have houter : ∀ b ∈ outer, b = .body := by
      have := hs.outer t
      rwa [hthreads] at this
    refine hmoves hm ?_ ?_ ?_
    · intro b hb
      cases hnext : (preBody storageKind (s.flag (flagCell storageKind t)) block).2 with
      | none =>
        rw [hnext] at hb
        exact houter b (List.mem_of_mem_tail hb)
      | some b' =>
        rw [hnext] at hb
        exact houter b hb
    · intro hcase
      by_cases hflag : s.flag (flagCell storageKind t) = 0
      · have hzero := @preBody_zero storageKind block hblock
        rw [hflag] at hm hcase
        obtain hbody | ⟨hstay,-⟩ | ⟨hstay,hloop⟩ := hzero
        · have hhistory := hm.history
          rw [hbody] at hhistory
          rw [hhistory,entries_append]
          exact Nat.lt_add_left _ (by simp [eventsOf,entries])
        · refine hmono _ (hs.block t ?_)
          rw [hstay] at hcase
          rw [hthreads]
          obtain hne | hin | hin := hcase
          · exact absurd rfl hne
          · exact .inl (List.mem_cons_of_mem _ (by simpa using hin))
          · exact .inr (List.mem_cons_of_mem _ (by simpa using hin))
        · refine hmono _ (hs.block t ?_)
          rw [hthreads,hloop]
          exact .inl List.mem_cons_self
      · exact hmono _ (hs.flag _ hflag)
    · intro hkind b hb
      have hentry : block = .entry :=
        (hs.tls hkind t block (by rw [hthreads]; exact List.mem_cons_self)).resolve_right hblock
      obtain hnext | hmem := List.mem_append.mp hb
      · rw [Option.mem_toList,hentry,hkind] at hnext
        exact .inr (preBody_tls hnext)
      · exact .inr (houter b hmem)
  | leave t kind =>
    obtain ⟨outer,hthreads,hm⟩ := step_leave h
    refine hmoves hm ?_ ?_ ?_
    · intro b hb
      refine hs.outer t b ?_
      rw [hthreads]
      exact List.mem_of_mem_tail hb
    · intro _
      exact hmono _ (hs.block t (.inr (by rw [hthreads]; exact List.mem_cons_self)))
    · intro hkind b hb
      exact hs.tls hkind t b (by rw [hthreads]; exact List.mem_cons_of_mem _ hb)

end Jancy.Ct.OnceStmt
