import Jancy.Ct.OnceStmt

/-! The states of a flag, the progress of a thread at the statement, and the runs that keep the
promise of a `once` statement. -/
namespace Jancy.Ct.OnceStmt

variable {storageKind : StorageKind} {s s' : State} {thread : ℕ} {cell : Option ℕ}

inductive Phase (storageKind : StorageKind) (s : State) (cell : Option ℕ) : Prop
  | fresh (hflag : s.flag cell = 0) (hentries : entries storageKind cell s.history = 0)
      (hexits : exits storageKind cell s.history = 0)
      (hpasses : passes storageKind cell s.history = 0)
      (hbody : ∀ thread, flagCell storageKind thread = cell →
        (s.threads thread).count .body = 0)
  | running (owner : ℕ) (howner : flagCell storageKind owner = cell)
      (hflag : s.flag cell = if storageKind = .static then 1 else 0)
      (hentries : entries storageKind cell s.history = 1)
      (hexits : exits storageKind cell s.history = 0)
      (hpasses : passes storageKind cell s.history = 0)
      (hbody : (s.threads owner).count .body = 1)
      (hothers : ∀ thread, flagCell storageKind thread = cell → thread ≠ owner →
        (s.threads thread).count .body = 0)
  | done (hflag : s.flag cell = 2) (hentries : entries storageKind cell s.history = 1)
      (hexits : 0 < exits storageKind cell s.history)
      (hbody : ∀ thread, flagCell storageKind thread = cell →
        (s.threads thread).count .body = 0)

theorem Phase.frame (hp : Phase storageKind s cell) (hflag : s'.flag cell = s.flag cell)
    (hbody : ∀ thread, flagCell storageKind thread = cell →
      (s'.threads thread).count .body = (s.threads thread).count .body)
    (hentries : entries storageKind cell s'.history = entries storageKind cell s.history)
    (hexits : exits storageKind cell s'.history = exits storageKind cell s.history)
    (hpasses : s.flag cell ≠ 2 →
      passes storageKind cell s'.history = passes storageKind cell s.history) :
    Phase storageKind s' cell := by
  cases hp with
  | fresh hf he hx hp hb =>
    refine .fresh (hflag.trans hf) (hentries.trans he) (hexits.trans hx) ?_ fun t ht => ?_
    · exact (hpasses (by rw [hf]; decide)).trans hp
    · exact (hbody t ht).trans (hb t ht)
  | running owner ho hf he hx hp hb hothers =>
    refine .running owner ho (hflag.trans hf) (hentries.trans he) (hexits.trans hx) ?_
      ((hbody owner ho).trans hb) fun t ht hne => ?_
    · refine (hpasses ?_).trans hp
      rw [hf]
      split <;> decide
    · exact (hbody t ht).trans (hothers t ht hne)
  | done hf he hx hb =>
    refine .done (hflag.trans hf) (hentries.trans he) (by rw [hexits]; exact hx) fun t ht => ?_
    exact (hbody t ht).trans (hb t ht)

theorem Phase.init : Phase storageKind .init cell := .fresh rfl rfl rfl rfl fun _ _ => rfl

theorem Phase.of_ne {flag : ℕ} {blocks : List Block} {events : List Event}
    (hp : Phase storageKind s cell) (hm : Moves storageKind thread flag blocks events s s')
    (hcell : cell ≠ flagCell storageKind thread)
    (hentries : entries storageKind cell events = 0) (hexits : exits storageKind cell events = 0)
    (hpasses : passes storageKind cell events = 0) : Phase storageKind s' cell := by
  refine hp.frame (hm.flag_of_ne cell hcell) ?_ ?_ ?_ fun _ => ?_
  · intro t ht
    rw [hm.threads_of_ne t]
    rintro rfl
    exact hcell ht.symm
  · rw [hm.history,entries_append,hentries,Nat.add_zero]
  · rw [hm.history,exits_append,hexits,Nat.add_zero]
  · rw [hm.history,passes_append,hpasses,Nat.add_zero]

theorem Phase.waiting {blocks : List Block}
    (hp : Phase storageKind s (flagCell storageKind thread))
    (hm : Moves storageKind thread (s.flag (flagCell storageKind thread)) blocks [] s s')
    (hblocks : blocks.count .body = (s.threads thread).count .body) :
    Phase storageKind s' (flagCell storageKind thread) := by
  have hhistory : s'.history = s.history := by rw [hm.history,List.append_nil]
  refine hp.frame hm.flag ?_ ?_ ?_ fun _ => ?_
  · intro t _
    by_cases ht : t = thread
    · rw [ht,hm.threads,hblocks]
    · rw [hm.threads_of_ne t ht]
  · rw [hhistory]
  · rw [hhistory]
  · rw [hhistory]

theorem preBody_enters {block : Block} (hblock : block ≠ .body)
    (hkind : storageKind = .tls → block = .entry)
    (h : (preBody storageKind 0 block).2 = some .body) :
    (preBody storageKind 0 block).1 = if storageKind = .static then 1 else 0 := by
  cases storageKind with
  | tls =>
    rw [hkind rfl]
    rfl
  | static =>
    cases block with
    | entry => cases h
    | loop => cases h
    | preBody => rfl
    | body => exact absurd rfl hblock

theorem preBody_one {block : Block} (hblock : block ≠ .body) :
    preBody .static 1 block = (1,some .loop) := by
  cases block with
  | entry => rfl
  | loop => rfl
  | preBody => rfl
  | body => exact absurd rfl hblock

/-- A thread at the statement executes a block. -/
theorem Phase.advance (hs : Seen storageKind s)
    (hp : Phase storageKind s (flagCell storageKind thread))
    (hproper : Proper storageKind s (.advance thread))
    (h : step storageKind s (.advance thread) = some s') :
    Phase storageKind s' (flagCell storageKind thread) := by
  obtain ⟨block,outer,hthreads,hblock,hm⟩ := step_advance h
  have hcount : (s.threads thread).count .body = outer.count .body := by
    rw [hthreads,List.count_cons_of_ne hblock]
  have hwait : ∀ b : Block, b ≠ .body → ((some b).toList ++ outer).count .body =
      (s.threads thread).count .body := by
    intro b hb
    rw [hcount]
    exact List.count_cons_of_ne hb
  cases hphase : hp with
  | fresh hf he hx hpass hb =>
    have hzero := @preBody_zero storageKind block hblock
    have henters := @preBody_enters storageKind block hblock fun hkind =>
      (hs.tls hkind thread block (by rw [hthreads]; exact List.mem_cons_self)).resolve_right hblock
    rw [hf] at hm
    obtain hbody | ⟨hstay,-⟩ | ⟨hstay,-⟩ := hzero
    · have hflag := hm.flag
      have hblocks := hm.threads
      have hhistory := hm.history
      rw [henters hbody] at hflag
      rw [hbody] at hblocks hhistory
      refine .running thread rfl hflag ?_ ?_ ?_ ?_ ?_
      · rw [hhistory,entries_append,he]
        simp [eventsOf,entries]
      · rw [hhistory,exits_append,hx]
        rfl
      · rw [hhistory,passes_append,hpass]
        rfl
      · rw [hblocks]
        have hzero := hb thread rfl
        rw [hcount] at hzero
        rw [Option.toList_some,List.singleton_append,List.count_cons_self,hzero]
      · intro t ht hne
        rw [hm.threads_of_ne t hne]
        exact hb t ht
    · rw [hstay] at hm
      exact hp.waiting (by rw [hf]; exact hm) (hwait .preBody (by decide))
    · rw [hstay] at hm
      exact hp.waiting (by rw [hf]; exact hm) (hwait .loop (by decide))
  | running owner ho hf he hx hpass hb hno =>
    cases storageKind with
    | static =>
      have hflag : s.flag (flagCell .static thread) = 1 := hf
      rw [hflag,preBody_one hblock] at hm
      exact hp.waiting (by rw [hflag]; exact hm) (hwait .loop (by decide))
    | tls =>
      -- the owner of its flag is in the body already
      have howner : owner = thread := Option.some.inj ho
      rw [howner] at hb
      have hmem : Block.body ∈ s.threads thread := List.count_pos_iff.mp (by omega)
      exact absurd hmem (hproper rfl)
  | done hf he hx hb =>
    have htwo := @preBody_two storageKind block hblock
    rw [hf] at hm
    obtain hpass | ⟨hstay,-⟩ := htwo
    · have hflag := hm.flag
      have hblocks := hm.threads
      have hhistory := hm.history
      rw [hpass] at hflag hblocks hhistory
      refine .done hflag ?_ ?_ ?_
      · rw [hhistory,entries_append,he]
        rfl
      · rw [hhistory,exits_append]
        exact Nat.lt_add_right _ hx
      · intro t ht
        by_cases hne : t = thread
        · rw [hne,hblocks]
          exact hcount.symm.trans (hb thread rfl)
        · rw [hm.threads_of_ne t hne]
          exact hb t ht
    · rw [hstay] at hm
      exact hp.waiting (by rw [hf]; exact hm) (hwait .loop (by decide))

theorem Phase.leave (hp : Phase storageKind s (flagCell storageKind thread))
    (h : step storageKind s (.leave thread .fallThrough) = some s') :
    Phase storageKind s' (flagCell storageKind thread) := by
  obtain ⟨outer,hthreads,hm⟩ := step_leave h
  have hcount : (s.threads thread).count .body = outer.count .body + 1 := by
    rw [hthreads,List.count_cons_self]
  cases hp with
  | fresh hf he hx hpass hb =>
    have := hb thread rfl
    omega
  | running owner ho hf he hx hpass hb hno =>
    have howner : thread = owner := by
      by_contra hne
      have := hno thread rfl hne
      omega
    subst howner
    refine .done hm.flag ?_ ?_ ?_
    · rw [hm.history,entries_append,he]
      rfl
    · rw [hm.history,exits_append]
      exact Nat.lt_add_left _ (by simp [exits])
    · intro t ht
      by_cases hne : t = thread
      · rw [hne,hm.threads]
        omega
      · rw [hm.threads_of_ne t hne]
        exact hno t ht hne
  | done hf he hx hb =>
    have := hb thread rfl
    omega

variable {label : Label}

theorem pos_entries_mono (h : step storageKind s label = some s')
    (hpos : 0 < entries storageKind cell s.history) : 0 < entries storageKind cell s'.history :=
  Nat.lt_of_lt_of_le hpos (entries_mono h)

def stepsToExchange (blocks : List Block) : ℕ :=
  match blocks with
  | [] => 1
  | .entry :: _ => 1
  | _ => 0

theorem entered_of_steps (hs : Seen storageKind s) {run : List Label}
    (he : Run.exec (step storageKind) s run = some s') (hcount : 2 ≤ run.count (.advance thread)) :
    0 < entries storageKind (flagCell storageKind thread) s'.history := by
  refine @Run.exec_progress State Label (step storageKind) run (Seen storageKind)
    (fun u => 0 < entries storageKind (flagCell storageKind thread) u.history)
    (· == .advance thread) (fun u => stepsToExchange (u.threads thread))
    (fun _ _ _ hu h => hu.keep h) (fun _ _ _ hu h => pos_entries_mono h hu) ?_ ?_ s s' hs he ?_
  · intro u label u' hu hown h
    obtain rfl : label = .advance thread := by simpa using hown
    obtain ⟨block,outer,hthreads,hblock,hm⟩ := step_advance h
    by_cases hflag : u.flag (flagCell storageKind thread) = 0
    · have hzero := @preBody_zero storageKind block hblock
      rw [hflag] at hm
      obtain hbody | ⟨hstay,hentry⟩ | ⟨-,hloop⟩ := hzero
      · have hhistory := hm.history
        rw [hbody] at hhistory
        rw [hhistory,entries_append]
        exact .inl (Nat.lt_add_left _ (by simp [eventsOf,entries]))
      · have hblocks := hm.threads
        rw [hstay] at hblocks
        rw [hblocks,hthreads,hentry]
        exact .inr Nat.zero_lt_one
      · refine .inl (pos_entries_mono h (hu.block thread ?_))
        rw [hthreads,hloop]
        exact .inl List.mem_cons_self
    · exact .inl (pos_entries_mono h (hu.flag _ hflag))
  · intro u label u' hu hown h
    have hsame : ∀ {t flag blocks events}, t ≠ thread →
        Moves storageKind t flag blocks events u u' →
        stepsToExchange (u'.threads thread) ≤ stepsToExchange (u.threads thread) := by
      intro t flag blocks events hne hm
      exact Nat.le_of_eq (congrArg stepsToExchange (hm.threads_of_ne thread (Ne.symm hne)))
    cases label with
    | start t =>
      obtain ⟨hhead,hm⟩ := step_start h
      by_cases hne : t = thread
      · subst hne
        cases hthreads : u.threads t with
        | nil =>
          rw [hm.threads,hthreads]
          exact .inr (Nat.le_refl 1)
        | cons block outer =>
          refine .inl (pos_entries_mono h (hu.block t (.inr ?_)))
          rw [hthreads] at hhead ⊢
          rw [hhead block rfl]
          exact List.mem_cons_self
      · exact .inr (hsame hne hm)
    | advance t =>
      obtain ⟨block,outer,-,-,hm⟩ := step_advance h
      refine .inr (hsame ?_ hm)
      rintro rfl
      simp at hown
    | leave t kind =>
      obtain ⟨outer,hthreads,hm⟩ := step_leave h
      by_cases hne : t = thread
      · subst hne
        refine .inl (pos_entries_mono h (hu.block t (.inr ?_)))
        rw [hthreads]
        exact List.mem_cons_self
      · exact .inr (hsame hne hm)
  · have hle : stepsToExchange (s.threads thread) ≤ 1 := by
      unfold stepsToExchange
      split <;> decide
    exact Nat.lt_of_le_of_lt hle hcount

def Over (storageKind : StorageKind) (cell : Option ℕ) (s : State) : Prop :=
  s.flag cell = 2 ∧
    ∀ thread, flagCell storageKind thread = cell → .body ∉ s.threads thread

theorem Over.keep (ho : Over storageKind cell s) (h : step storageKind s label = some s') :
    Over storageKind cell s' := by
  -- what is left to show of the thread that moves
  have hmoves : ∀ {t flag blocks events}, Moves storageKind t flag blocks events s s' →
      (flagCell storageKind t = cell → flag = 2 ∧ .body ∉ blocks) → Over storageKind cell s' := by
    intro t flag blocks events hm hmoved
    refine ⟨?_,?_⟩
    · by_cases hcell : cell = flagCell storageKind t
      · rw [hcell,hm.flag]
        exact (hmoved hcell.symm).1
      · rw [hm.flag_of_ne cell hcell]
        exact ho.1
    · intro t' ht'
      by_cases hne : t' = t
      · subst hne
        rw [hm.threads]
        exact (hmoved ht').2
      · rw [hm.threads_of_ne t' hne]
        exact ho.2 t' ht'
  cases label with
  | start t =>
    obtain ⟨-,hm⟩ := step_start h
    refine hmoves hm fun hcell => ⟨by rw [hcell]; exact ho.1,?_⟩
    exact List.not_mem_cons_of_ne_of_not_mem (by decide) (ho.2 t hcell)
  | advance t =>
    obtain ⟨block,outer,hthreads,hblock,hm⟩ := step_advance h
    refine hmoves hm fun hcell => ?_
    have houter : Block.body ∉ outer := by
      have hnot := ho.2 t hcell
      rw [hthreads] at hnot
      exact fun hmem => hnot (List.mem_cons_of_mem _ hmem)
    rw [hcell,ho.1]
    obtain hnext | ⟨hnext,-⟩ := @preBody_two storageKind block hblock
    · rw [hnext]
      exact ⟨rfl,houter⟩
    · rw [hnext]
      exact ⟨rfl,List.not_mem_cons_of_ne_of_not_mem (by decide) houter⟩
  | leave t kind =>
    obtain ⟨outer,hthreads,hm⟩ := step_leave h
    refine hmoves hm fun hcell => ?_
    have hnot := ho.2 t hcell
    rw [hthreads] at hnot
    exact absurd List.mem_cons_self hnot

theorem count_pass_mono (h : step storageKind s label = some s') :
    s.history.count (.pass thread) ≤ s'.history.count (.pass thread) := by
  obtain ⟨events,hevents⟩ := step_history h
  rw [hevents,List.count_append]
  exact Nat.le_add_right _ _

/-- The steps in front of a test of the flag. -/
def stepsToTest (blocks : List Block) : ℕ :=
  match blocks with
  | .preBody :: _ => 1
  | _ => 0

theorem pass_of_steps (ho : Over storageKind (flagCell storageKind thread) s) {run : List Label}
    (he : Run.exec (step storageKind) s run = some s') (hcount : 2 ≤ run.count (.advance thread)) :
    s.history.count (.pass thread) < s'.history.count (.pass thread) := by
  refine @Run.exec_progress State Label (step storageKind) run
    (fun u => Over storageKind (flagCell storageKind thread) u ∧
      s.history.count (.pass thread) ≤ u.history.count (.pass thread))
    (fun u => s.history.count (.pass thread) < u.history.count (.pass thread))
    (· == .advance thread) (fun u => stepsToTest (u.threads thread))
    (fun _ _ _ hu h => ⟨hu.1.keep h,Nat.le_trans hu.2 (count_pass_mono h)⟩)
    (fun _ _ _ hu h => Nat.lt_of_lt_of_le hu (count_pass_mono h)) ?_ ?_ s s'
    ⟨ho,Nat.le_refl _⟩ he ?_
  · rintro u label u' ⟨hu,hle⟩ hown h
    obtain rfl : label = .advance thread := by simpa using hown
    obtain ⟨block,outer,hthreads,hblock,hm⟩ := step_advance h
    rw [hu.1] at hm
    obtain hpass | ⟨hstay,hpre⟩ := @preBody_two storageKind block hblock
    · have hhistory := hm.history
      rw [hpass] at hhistory
      rw [hhistory,List.count_append]
      exact .inl (Nat.lt_of_le_of_lt hle (by simp [eventsOf]))
    · have hblocks := hm.threads
      rw [hstay] at hblocks
      rw [hblocks,hthreads,hpre]
      exact .inr Nat.zero_lt_one
  · rintro u label u' ⟨hu,-⟩ hown h
    have hsame : ∀ {t flag blocks events}, t ≠ thread →
        Moves storageKind t flag blocks events u u' →
        stepsToTest (u'.threads thread) ≤ stepsToTest (u.threads thread) := by
      intro t flag blocks events hne hm
      exact Nat.le_of_eq (congrArg stepsToTest (hm.threads_of_ne thread (Ne.symm hne)))
    cases label with
    | start t =>
      obtain ⟨-,hm⟩ := step_start h
      by_cases hne : t = thread
      · subst hne
        rw [hm.threads]
        exact .inr (Nat.zero_le _)
      · exact .inr (hsame hne hm)
    | advance t =>
      obtain ⟨block,outer,-,-,hm⟩ := step_advance h
      refine .inr (hsame ?_ hm)
      rintro rfl
      simp at hown
    | leave t kind =>
      obtain ⟨outer,hthreads,hm⟩ := step_leave h
      by_cases hne : t = thread
      · subst hne
        have hnot := hu.2 t rfl
        rw [hthreads] at hnot
        exact absurd List.mem_cons_self hnot
      · exact .inr (hsame hne hm)
  · have hle : stepsToTest (s.threads thread) ≤ 1 := by
      unfold stepsToTest
      split <;> decide
    exact Nat.lt_of_le_of_lt hle hcount

/-- What the steps of a proper run keep. -/
structure Inv (storageKind : StorageKind) (s : State) : Prop where
  seen : Seen storageKind s
  phase : ∀ cell, Phase storageKind s cell

theorem Inv.init : Inv storageKind .init := ⟨.init,fun _ => .init⟩

theorem Inv.once (hi : Inv storageKind s) : Once storageKind s where
  entered_once cell := by
    cases hi.phase cell with
    | fresh _ he => omega
    | running _ _ _ he => omega
    | done _ he => omega
  passed_after_exit cell hpass := by
    cases hi.phase cell with
    | fresh _ _ _ hzero => omega
    | running _ _ _ _ _ hzero => omega
    | done _ _ hx => exact hx
  entered thread run s' he hcount := entered_of_steps hi.seen he hcount
  passes_on thread hexit run s' he hcount := by
    refine pass_of_steps ?_ he hcount
    cases hi.phase (flagCell storageKind thread) with
    | fresh _ _ hx => omega
    | running _ _ _ _ hx => omega
    | done hf _ _ hb => exact ⟨hf,fun t ht => List.count_eq_zero.mp (hb t ht)⟩

theorem Inv.keep (hi : Inv storageKind s) (hc : Proper storageKind s label)
    (h : step storageKind s label = some s') : Inv storageKind s' := by
  refine ⟨hi.seen.keep h,fun cell => ?_⟩
  have hp := hi.phase cell
  cases label with
  | start t =>
    obtain ⟨-,hm⟩ := step_start h
    by_cases hcell : cell = flagCell storageKind t
    · subst hcell
      exact hp.waiting hm (List.count_cons_of_ne (by decide))
    · exact hp.of_ne hm hcell rfl rfl rfl
  | advance t =>
    by_cases hcell : cell = flagCell storageKind t
    · subst hcell
      exact hp.advance hi.seen hc h
    · obtain ⟨block,outer,-,-,hm⟩ := step_advance h
      have hevents : ∀ next : Option Block, entries storageKind cell (eventsOf t next) = 0 ∧
          exits storageKind cell (eventsOf t next) = 0 ∧
          passes storageKind cell (eventsOf t next) = 0 := by
        intro next
        cases next with
        | none => simp [eventsOf,entries,exits,passes,Ne.symm hcell]
        | some b => cases b <;> simp [eventsOf,entries,exits,passes,Ne.symm hcell]
      obtain ⟨he,hx,hpass⟩ := hevents
        (preBody storageKind (s.flag (flagCell storageKind t)) block).2
      exact hp.of_ne hm hcell he hx hpass
  | leave t kind =>
    by_cases hcell : cell = flagCell storageKind t
    · subst hcell
      have hkind : kind = .fallThrough := hc
      subst hkind
      exact hp.leave h
    · obtain ⟨outer,-,hm⟩ := step_leave h
      refine hp.of_ne hm hcell rfl ?_ rfl
      simp [exits,Ne.symm hcell]

theorem abandoned (hthreads : s.threads thread = [])
    (hflag : s.flag (flagCell storageKind thread) = if storageKind = .static then 1 else 0) :
    ∃ run, 2 ≤ run.count (.advance thread) ∧
      (Run.exec (step storageKind) s run).map (fun u => u.history.count (.pass thread)) =
        some (s.history.count (.pass thread)) := by
  cases storageKind with
  | static =>
    have hone : s.flag none = 1 := hflag
    refine ⟨[.start thread,.advance thread,.advance thread],by simp,?_⟩
    simp [Run.exec,step,hthreads,flagCell,preBody,hone,eventsOf]
  | tls =>
    have hzero : s.flag (some thread) = 0 := hflag
    refine ⟨[.start thread,.advance thread,.leave thread .break,.start thread,.advance thread],
      by simp,?_⟩
    simp [Run.exec,step,hthreads,flagCell,preBody,postBody,hzero,eventsOf]

theorem Inv.not_once_of_escape {kind : Exit} (hi : Inv storageKind s) (hkind : kind ≠ .fallThrough)
    (h : step storageKind s (.leave thread kind) = some s') : ¬Once storageKind s' := by
  obtain ⟨outer,hthreads,hm⟩ := step_leave h
  have hcount : (s.threads thread).count .body = outer.count .body + 1 := by
    rw [hthreads,List.count_cons_self]
  have hpost : postBody (s.flag (flagCell storageKind thread)) kind =
      s.flag (flagCell storageKind thread) := by
    cases kind with
    | fallThrough => exact absurd rfl hkind
    | _ => rfl
  cases hi.phase (flagCell storageKind thread) with
  | fresh _ _ _ _ hb =>
    have := hb thread rfl
    omega
  | running owner ho hf _ _ _ hb hno =>
    have howner : thread = owner := by
      by_contra hne
      have := hno thread rfl hne
      omega
    subst howner
    -- the body was the only one
    have houter : outer = [] := by
      refine List.eq_nil_iff_forall_not_mem.mpr fun b hb' => ?_
      have hbody := hi.seen.outer thread b (by rw [hthreads]; exact hb')
      have hpos := List.count_pos_iff.mpr (hbody ▸ hb')
      omega
    have hblocks := hm.threads
    rw [houter] at hblocks
    obtain ⟨run,htwo,hrun⟩ := abandoned hblocks ((hm.flag.trans hpost).trans hf)
    obtain ⟨u,he,hsame⟩ := Option.map_eq_some_iff.mp hrun
    intro honce
    have hexit : 0 < exits storageKind (flagCell storageKind thread) s'.history := by
      rw [hm.history,exits_append]
      exact Nat.lt_add_left _ (by simp [exits])
    have hlt := honce.passes_on thread hexit run u he htwo
    omega
  | done _ _ _ hb =>
    have := hb thread rfl
    omega

theorem Inv.not_once_of_nested (hi : Inv storageKind s)
    (hproper : ¬Proper storageKind s (.advance thread))
    (h : step storageKind s (.advance thread) = some s') : ¬Once storageKind s' := by
  rw [Proper,Classical.not_imp,not_not] at hproper
  obtain ⟨rfl,hmem⟩ := hproper
  obtain ⟨block,outer,hthreads,hblock,hm⟩ := step_advance h
  have hentry : block = .entry :=
    (hi.seen.tls rfl thread block (by rw [hthreads]; exact List.mem_cons_self)).resolve_right hblock
  have hcount := List.count_pos_iff.mpr hmem
  cases hi.phase (flagCell .tls thread) with
  | fresh _ _ _ _ hb =>
    have := hb thread rfl
    omega
  | running owner ho hf he _ _ hb hno =>
    have hzero : s.flag (flagCell .tls thread) = 0 := hf
    rw [hzero,hentry] at hm
    intro honce
    have hle := honce.entered_once (flagCell .tls thread)
    rw [hm.history,entries_append,he] at hle
    simp [preBody,eventsOf,entries] at hle
  | done _ _ _ hb =>
    have := hb thread rfl
    omega

/-- The statement keeps its promise in every state of a run if and only if the body is only left at
its end, and no thread with its own flag comes to the statement inside the body. -/
theorem always_once_iff (storageKind : StorageKind) (run : List Label) :
    Run.Always (step storageKind) (Once storageKind) .init run ↔
      Run.Along (step storageKind) (Proper storageKind) .init run := by
  refine Run.always_iff_along (fun _ hi => Inv.once hi) (fun _ _ _ hi hc h => hi.keep hc h) ?_
    Inv.init run
  intro s label s' hi hc h
  cases label with
  | start t => exact absurd trivial hc
  | advance t => exact hi.not_once_of_nested hc h
  | leave t kind => exact hi.not_once_of_escape hc h

/-- One thread breaks out of the body, and another one stays in the loop. -/
theorem break_waits :
    ¬Run.Always (step .static) (Once .static) .init
        [.start 0,.advance 0,.advance 0,.leave 0 .break,.start 1,.advance 1] ∧
      ∃ s, Run.exec (step .static) .init
          [.start 0,.advance 0,.advance 0,.leave 0 .break,.start 1,.advance 1] = some s ∧
        s.history = [.enter 0,.exit 0 .break] ∧ s.threads 0 = [] ∧ s.threads 1 = [.loop] ∧
        (step .static s (.advance 1)).map (fun u => (u.flag none,u.threads 1,u.history)) =
          some (s.flag none,s.threads 1,s.history) := by
  refine ⟨fun h => ?_,_,rfl,rfl,rfl,rfl,rfl⟩
  have honce := h.last rfl
  have hpass := honce.passes_on 1 (by decide) [.advance 1,.advance 1] _ rfl (by decide)
  exact absurd hpass (by decide)

/-- A flag that all threads share, however the body is left. -/
inductive Shared (s : State) : Prop
  | fresh (hflag : s.flag none = 0) (hentries : entries .static none s.history = 0)
      (hpasses : passes .static none s.history = 0) (hbody : ∀ thread, .body ∉ s.threads thread)
  | taken (hflag : s.flag none = 1) (hentries : entries .static none s.history = 1)
      (hpasses : passes .static none s.history = 0)
  | done (hflag : s.flag none = 2) (hentries : entries .static none s.history = 1)
      (hexit : ∃ thread, .exit thread .fallThrough ∈ s.history)

theorem Shared.keep (hs : Shared s) (h : step .static s label = some s') : Shared s' := by
  -- where the flag is kept, so is what it stands for
  have hsame : ∀ {t blocks events}, Moves .static t (s.flag none) blocks events s s' →
      entries .static none events = 0 →
      (s.flag none ≠ 2 → passes .static none events = 0) →
      (s.flag none = 0 → .body ∉ blocks) → Shared s' := by
    intro t blocks events hm he hp hb
    have hentries : entries .static none s'.history = entries .static none s.history := by
      rw [hm.history,entries_append,he,Nat.add_zero]
    have hpasses : s.flag none ≠ 2 →
        passes .static none s'.history = passes .static none s.history := fun hne => by
      rw [hm.history,passes_append,hp hne,Nat.add_zero]
    cases hs with
    | fresh hf he hp hbody =>
      refine .fresh (hm.flag.trans hf) (hentries.trans he)
        ((hpasses (by rw [hf]; decide)).trans hp) fun u => ?_
      by_cases hu : u = t
      · rw [hu,hm.threads]
        exact hb hf
      · rw [hm.threads_of_ne u hu]
        exact hbody u
    | taken hf he hp =>
      exact .taken (hm.flag.trans hf) (hentries.trans he)
        ((hpasses (by rw [hf]; decide)).trans hp)
    | done hf he hexit =>
      obtain ⟨u,hu⟩ := hexit
      refine .done (hm.flag.trans hf) (hentries.trans he) ⟨u,?_⟩
      rw [hm.history]
      exact List.mem_append_left _ hu
  have hnone : s.flag none = 0 → ∀ t, Block.body ∉ s.threads t := by
    intro hzero
    cases hs with
    | fresh _ _ _ hbody => exact hbody
    | taken hf => omega
    | done hf => omega
  cases label with
  | start t =>
    refine hsame (step_start h).2 rfl (fun _ => rfl) fun hzero => ?_
    exact List.not_mem_cons_of_ne_of_not_mem (by decide) (hnone hzero t)
  | advance t =>
    obtain ⟨block,outer,hthreads,hblock,hm⟩ := step_advance h
    have houter : s.flag none = 0 → Block.body ∉ outer := fun hzero hmem =>
      hnone hzero t (by rw [hthreads]; exact List.mem_cons_of_mem _ hmem)
    have hwait : ∀ b : Block, b ≠ .body → Moves .static t (s.flag none) (b :: outer) [] s s' →
        Shared s' := fun b hb hm => hsame hm rfl (fun _ => rfl) fun hzero =>
      List.not_mem_cons_of_ne_of_not_mem hb.symm (houter hzero)
    change Moves .static t (preBody .static (s.flag none) block).1
      ((preBody .static (s.flag none) block).2.toList ++ outer)
      (eventsOf t (preBody .static (s.flag none) block).2) s s' at hm
    cases hs with
    | fresh hf he hp _ =>
      rw [hf] at hm hwait
      obtain hbody | ⟨hstay,-⟩ | ⟨hstay,-⟩ := @preBody_zero .static block hblock
      · have hflag := hm.flag
        have hhistory := hm.history
        rw [preBody_enters hblock (by rintro ⟨⟩) hbody] at hflag
        rw [hbody] at hhistory
        refine .taken hflag ?_ ?_
        · rw [hhistory,entries_append,he]
          rfl
        · rw [hhistory,passes_append,hp]
          rfl
      · rw [hstay] at hm
        exact hwait .preBody (by decide) hm
      · rw [hstay] at hm
        exact hwait .loop (by decide) hm
    | taken hf =>
      rw [hf] at hm hwait
      rw [preBody_one hblock] at hm
      exact hwait .loop (by decide) hm
    | done hf =>
      rw [hf] at hm hwait
      obtain hpass | ⟨hstay,-⟩ := @preBody_two .static block hblock
      · rw [hpass,← hf] at hm
        exact hsame hm rfl (fun hne => absurd hf hne) houter
      · rw [hstay] at hm
        exact hwait .loop (by decide) hm
  | leave t kind =>
    obtain ⟨outer,hthreads,hm⟩ := step_leave h
    have hmem : Block.body ∈ s.threads t := by
      rw [hthreads]
      exact List.mem_cons_self
    cases kind with
    | fallThrough =>
      have hentries : entries .static none s.history = 1 := by
        cases hs with
        | fresh hf => exact absurd hmem (hnone hf t)
        | taken _ he => exact he
        | done _ he => exact he
      refine .done hm.flag ?_ ⟨t,?_⟩
      · rw [hm.history,entries_append,hentries]
        rfl
      · rw [hm.history]
        exact List.mem_append_right _ List.mem_cons_self
    | _ => exact hsame hm rfl (fun _ => rfl) fun hzero => absurd hmem (hnone hzero t)

/-- Whatever the threads do, and also where the body is left by a jump or an exception, it is
entered once at most, and no thread goes on before a thread has come to its end. -/
theorem always_at_most_once (run : List Label) :
    Run.Always (step .static) (fun s => entries .static none s.history ≤ 1 ∧
      (0 < passes .static none s.history → ∃ thread, .exit thread .fallThrough ∈ s.history))
      .init run := by
  refine Run.always_of_invariant (I := Shared) ?_ (fun _ _ _ hs h => hs.keep h)
    (.fresh rfl rfl rfl fun _ => List.not_mem_nil) run
  intro s hs
  cases hs with
  | fresh _ he hp => exact ⟨by omega,fun hpass => by omega⟩
  | taken _ he hp => exact ⟨by omega,fun hpass => by omega⟩
  | done _ he hexit => exact ⟨Nat.le_of_eq he,fun _ => hexit⟩

end Jancy.Ct.OnceStmt
