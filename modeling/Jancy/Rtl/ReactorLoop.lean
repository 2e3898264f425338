import Mathlib.Data.Finset.Card
import Jancy.Rtl.ReactorActive
import Mathlib.Algebra.Group.Nat.Defs

/-! One `reactionLoop`: how often it invokes a reaction, that it ends, and that it leaves no pending
reaction behind. -/
namespace Jancy.Rtl.ReactorSystem

open Reactor

variable {Ev : Type} [DecidableEq Ev] {count depth : ℕ} {s s' t : ReactorSystem Ev}
  {a : ReactorAction Ev} {rest : List ReactorFrame} {ran : List ℕ}

/-! ## What a loop does

The loop that stands above `depth` frames. Loops nested in its reactions stand higher. -/

def isTurn (depth : ℕ) (s : ReactorSystem Ev) : ReactorAction Ev → Bool
  | .look => s.stack.length = depth + 1
  | _ => false

/-- The reaction that a turn invokes. -/
def invocation (depth : ℕ) (s : ReactorSystem Ev) (a : ReactorAction Ev)
    (s' : ReactorSystem Ev) : List ℕ :=
  match a, s'.stack with
  | .look, .reacting i :: below =>
      if s.stack.length = depth + 1 ∧ below.length = depth then [i] else []
  | _, _ => []

/-- The reactions that run in a step: by a call of the reactor function, or as parts of a reactive
statement. -/
def reactionsRun (depth : ℕ) (s : ReactorSystem Ev) (a : ReactorAction Ev)
    (s' : ReactorSystem Ev) : List ℕ :=
  match a with
  | .enterReactiveStmt reactionFromIdx reactionToIdx =>
      if s.stack.length = depth + 1 ∧ s.reactor.state = .reacting then
        reactionRange reactionFromIdx reactionToIdx
      else []
  | a => invocation depth s a s'

def turns (count depth : ℕ) (s : ReactorSystem Ev) (as : List (ReactorAction Ev)) : ℕ :=
  (Run.collect (step count) (fun s a _ => if isTurn depth s a then [()] else []) s as).length

def invoked (count depth : ℕ) (s : ReactorSystem Ev) (as : List (ReactorAction Ev)) : List ℕ :=
  Run.collect (step count) (invocation depth) s as

def reactionsRunIn (count depth : ℕ) (s : ReactorSystem Ev) (as : List (ReactorAction Ev)) :
    List ℕ :=
  Run.collect (step count) (reactionsRun depth) s as

/-- The loop is still on the stack, and no exception leaves a call above it. -/
def inLoop (depth : ℕ) (s : ReactorSystem Ev) (a : ReactorAction Ev) : Bool :=
  depth < s.stack.length &&
    match a with
    | .reactorThrows frames => frames = 0
    | _ => true

/-- `ran` are the reactions that ran in this loop so far. -/
structure Looping (rest : List ReactorFrame) (ran : List ℕ) (s : ReactorSystem Ev) : Prop where
  state : s.reactor.state = .reacting
  stack : (∃ i, s.stack = .looking i :: rest) ∨ ∃ i, s.stack = .reacting i :: rest
  flags : ∀ r, s.reactor.isActive r = true ↔ r ∈ ran

def idleReactions (count : ℕ) (x : Reactor Ev) : Finset ℕ :=
  (Finset.range count).filter fun r => x.isActive r = false

def pendingReactions (count : ℕ) (x : Reactor Ev) : Finset ℕ :=
  (Finset.range count).filter fun r => r ∈ x.pendingReactionMap

/-- A bound on the turns to come. An invocation may mark all reactions, but takes an idle one. -/
def potential (count : ℕ) (s : ReactorSystem Ev) : ℕ :=
  (idleReactions count s.reactor).card * (count + 1) +
    match s.stack with
    | .looking _ :: _ => (pendingReactions count s.reactor).card
    | _ => count

omit [DecidableEq Ev] in
theorem idleReactions_mono {x y : Reactor Ev}
    (h : ∀ r, x.isActive r = true → y.isActive r = true) :
    (idleReactions count y).card ≤ (idleReactions count x).card := by
  apply Finset.card_le_card
  intro r hr
  obtain ⟨hlt,hidle⟩ := Finset.mem_filter.mp hr
  refine Finset.mem_filter.mpr ⟨hlt,?_⟩
  cases hx : x.isActive r with
  | false => rfl
  | true =>
    rw [h r hx] at hidle
    cases hidle

omit [DecidableEq Ev] in
theorem pendingReactions_le (count : ℕ) (x : Reactor Ev) :
    (pendingReactions count x).card ≤ count := by
  have h := Finset.card_filter_le (Finset.range count) fun r => r ∈ x.pendingReactionMap
  rwa [Finset.card_range] at h

omit [DecidableEq Ev] in
theorem potential_le (count : ℕ) (s : ReactorSystem Ev) :
    potential count s + 1 ≤ (count + 1) ^ 2 := by
  have hidle : (idleReactions count s.reactor).card ≤ count := by
    have h := Finset.card_filter_le (Finset.range count) fun r => s.reactor.isActive r = false
    rwa [Finset.card_range] at h
  have hmul := Nat.mul_le_mul_right (count + 1) hidle
  have hsquare : (count + 1) ^ 2 = count * (count + 1) + count + 1 := by
    rw [Nat.pow_two,Nat.add_mul,Nat.one_mul,Nat.add_assoc]
  have hpending := pendingReactions_le count s.reactor
  rw [hsquare]
  unfold potential
  split
  · omega
  · omega

/-- What a step does to a loop. -/
inductive LoopOutcome (count : ℕ) (rest : List ReactorFrame) (ran : List ℕ)
    (s : ReactorSystem Ev) (a : ReactorAction Ev) (s' : ReactorSystem Ev) : Prop
  | goesOn (looping : Looping rest (ran ++ reactionsRun rest.length s a s') s')
      (fresh : ∀ j ∈ invocation rest.length s a s', j ∉ ran)
      (potential : (if isTurn rest.length s a then 1 else 0) + potential count s' ≤
        potential count s)
      (pending : ∀ r ∈ s.reactor.pendingReactionMap,
        r ∈ s'.reactor.pendingReactionMap ∨ r ∈ ran ++ reactionsRun rest.length s a s')
  | stopped (i : ℕ) (notLook : a ≠ .look) (stack : s'.stack = .reacting i :: rest)
      (state : s'.reactor.state = .stopped)
  | exits (isLook : a = .look) (stack : s'.stack = rest)
      (state : s'.reactor.state = .running)
      (pending : s'.reactor.pendingReactionMap = s.reactor.pendingReactionMap)
      (idle : ∀ r < count, r ∉ s.reactor.pendingReactionMap)

variable {i : Option ℕ}

theorem look_enabled (hsound : Sound count s) (hstack : s.stack = .looking i :: rest)
    (hstate : s.reactor.state = .reacting) :
    (step count s .look).isSome = true := by
  have hprocessed := (processPendingBindings_spec hsound.wired).state
  rw [hstate] at hprocessed
  simp only [step,hstack,look]
  cases s.reactor.nextReaction count i with
  | none => simp [finishLoop,hprocessed]
  | some j =>
    dsimp only
    split <;> rfl

omit [DecidableEq Ev] in
theorem skip_outcome (h : Looping rest ran s) {j : ℕ} (hstack : s.stack = .looking i :: rest)
    (hnext : s.reactor.nextReaction count i = some j) (hactive : s.reactor.isActive j = true)
    (reads : ℕ → List Ev) :
    LoopOutcome count rest ran s .look
      ⟨s.reactor.clearBit j,.looking (some j) :: rest,reads⟩ := by
  have hran : j ∈ ran := (h.flags j).mp hactive
  refine .goesOn ?_ (by nofun) ?_ ?_
  · constructor
    · exact h.state
    · exact .inl ⟨some j,rfl⟩
    · intro r
      show s.reactor.isActive r = true ↔ r ∈ ran ++ []
      rw [List.append_nil]
      exact h.flags r
  · have hpending : (pendingReactions count (s.reactor.clearBit j)).card <
        (pendingReactions count s.reactor).card := by
      apply Finset.card_lt_card
      rw [Finset.ssubset_iff_of_subset]
      · refine ⟨j,?_,?_⟩
        · exact Finset.mem_filter.mpr
            ⟨Finset.mem_range.mpr (lt_of_nextReaction hnext),mem_of_nextReaction hnext⟩
        · simp [pendingReactions,clearBit]
      · intro r hr
        obtain ⟨hlt,hmem⟩ := Finset.mem_filter.mp hr
        exact Finset.mem_filter.mpr ⟨hlt,List.mem_of_mem_filter hmem⟩
    have hidle : idleReactions count (s.reactor.clearBit j) = idleReactions count s.reactor := rfl
    simp only [potential,hstack,isTurn,hidle,List.length_cons,decide_true,if_true]
    omega
  · intro r hr
    by_cases hrj : r = j
    · subst hrj
      exact .inr (List.mem_append_left _ hran)
    · exact .inl (List.mem_filter.mpr ⟨hr,decide_eq_true hrj⟩)

omit [DecidableEq Ev] in
theorem invoke_outcome (h : Looping rest ran s) {j : ℕ} (hstack : s.stack = .looking i :: rest)
    (hnext : s.reactor.nextReaction count i = some j) (hidle : s.reactor.isActive j = false)
    (reads : ℕ → List Ev) :
    LoopOutcome count rest ran s .look
      ⟨(s.reactor.clearBit j).activate j,.reacting j :: rest,reads⟩ := by
  have hran : j ∉ ran := by
    intro hj
    rw [(h.flags j).mpr hj] at hidle
    cases hidle
  have hspec := activate_spec (s.reactor.clearBit j) j
  have hlength : s.stack.length = rest.length + 1 := by rw [hstack,List.length_cons]
  have hinvocation : invocation rest.length s .look
      ⟨(s.reactor.clearBit j).activate j,.reacting j :: rest,reads⟩ = [j] :=
    if_pos ⟨hlength,rfl⟩
  have hrun : reactionsRun rest.length s .look
      ⟨(s.reactor.clearBit j).activate j,.reacting j :: rest,reads⟩ = [j] := hinvocation
  refine .goesOn ?_ ?_ ?_ ?_
  · constructor
    · exact hspec.state.trans h.state
    · exact .inr ⟨j,rfl⟩
    · intro r
      have hflag : (s.reactor.clearBit j).isActive r = true ↔ r ∈ ran := h.flags r
      rw [activate_isActive,hrun,Bool.or_eq_true,hflag,decide_eq_true_eq,List.mem_append,
        List.mem_singleton]
  · intro k hk
    rw [hinvocation,List.mem_singleton] at hk
    subst hk
    exact hran
  · have hless : (idleReactions count ((s.reactor.clearBit j).activate j)).card <
        (idleReactions count s.reactor).card := by
      apply Finset.card_lt_card
      rw [Finset.ssubset_iff_of_subset]
      · refine ⟨j,?_,?_⟩
        · exact Finset.mem_filter.mpr ⟨Finset.mem_range.mpr (lt_of_nextReaction hnext),hidle⟩
        · simp [idleReactions,activate_isActive]
      · intro r hr
        obtain ⟨hlt,hr⟩ := Finset.mem_filter.mp hr
        rw [activate_isActive,Bool.or_eq_false_iff] at hr
        exact Finset.mem_filter.mpr ⟨hlt,hr.1⟩
    have hmul := Nat.mul_le_mul_right (count + 1) (Nat.succ_le_of_lt hless)
    rw [Nat.succ_mul] at hmul
    simp only [potential,hstack,isTurn,List.length_cons,decide_true,if_true]
    omega
  · intro r hr
    by_cases hrj : r = j
    · subst hrj
      refine .inr (List.mem_append_right _ ?_)
      rw [hrun]
      exact List.mem_singleton_self r
    · refine .inl ?_
      show r ∈ ((s.reactor.clearBit j).activate j).pendingReactionMap
      rw [hspec.pendingReactionMap]
      exact List.mem_filter.mpr ⟨hr,decide_eq_true hrj⟩

theorem look_outcome (h : Looping rest ran s) (hsound : Sound count s)
    (hstack : s.stack = .looking i :: rest) (hlook : s.look count i rest = some s') :
    LoopOutcome count rest ran s .look s' := by
  unfold look at hlook
  cases hnext : s.reactor.nextReaction count i with
  | none =>
    have hprocessed := processPendingBindings_spec hsound.wired
    have hstate := hprocessed.state
    rw [h.state] at hstate
    have hstopped : s.reactor.processPendingBindings.state ≠ .stopped := by simp [hstate]
    simp only [hnext,finishLoop,if_neg hstopped,if_pos hstate] at hlook
    cases hlook
    exact .exits rfl rfl rfl hprocessed.pendingReactionMap (nextReaction_eq_none hnext)
  | some j =>
    have hsame : (s.reactor.clearBit j).isActive j = s.reactor.isActive j := rfl
    simp only [hnext] at hlook
    cases hactive : s.reactor.isActive j with
    | true =>
      have hresult : (s.reactor.clearBit j).activateReaction j =
          (false,s.reactor.clearBit j) := if_pos (hsame.trans hactive)
      rw [hresult] at hlook
      cases hlook
      exact skip_outcome h hstack hnext hactive _
    | false =>
      have hresult : (s.reactor.clearBit j).activateReaction j =
          (true,(s.reactor.clearBit j).activate j) :=
        if_neg (Bool.eq_false_iff.mp (hsame.trans hactive))
      rw [hresult] at hlook
      cases hlook
      exact invoke_outcome h hstack hnext hactive _

omit [DecidableEq Ev] in
theorem call_outcome (h : Looping rest ran s) {i : ℕ} (hstack : s.stack = .reacting i :: rest)
    (hran : reactionsRun rest.length s a s' = []) (hinvocation : invocation rest.length s a s' = [])
    (hturn : isTurn rest.length s a = false) (hstack' : s'.stack = .reacting i :: rest)
    (hstate : s'.reactor.state = s.reactor.state)
    (hflags : ∀ r, s'.reactor.isActive r = s.reactor.isActive r)
    (hpending : ∀ r ∈ s.reactor.pendingReactionMap, r ∈ s'.reactor.pendingReactionMap) :
    LoopOutcome count rest ran s a s' := by
  refine .goesOn ?_ ?_ ?_ ?_
  · rw [hran,List.append_nil]
    refine ⟨hstate.trans h.state,.inr ⟨i,hstack'⟩,?_⟩
    intro r
    rw [hflags]
    exact h.flags r
  · rw [hinvocation]
    nofun
  · have hidle : idleReactions count s'.reactor = idleReactions count s.reactor := by
      simp only [idleReactions,hflags]
    simp [potential,hstack,hstack',hturn,hidle]
  · exact fun r hr => .inl (hpending r hr)

omit [DecidableEq Ev] in
theorem enterReactiveStmt_outcome (h : Looping rest ran s) {i : ℕ}
    (hstack : s.stack = .reacting i :: rest) (reactionFromIdx reactionToIdx : ℕ)
    (reads : ℕ → List Ev) :
    LoopOutcome count rest ran s (.enterReactiveStmt reactionFromIdx reactionToIdx)
      ⟨(reactionRange reactionFromIdx reactionToIdx).foldl (fun x i => (x.activateReaction i).2)
        (s.reactor.clearBitRange reactionFromIdx reactionToIdx),s.stack,reads⟩ := by
  obtain ⟨hstate,hpending,_⟩ := foldl_activateReaction_frame
    (reactionRange reactionFromIdx reactionToIdx)
    (s.reactor.clearBitRange reactionFromIdx reactionToIdx)
  have hran : ∀ s', reactionsRun rest.length s
      (.enterReactiveStmt reactionFromIdx reactionToIdx) s' =
        reactionRange reactionFromIdx reactionToIdx := by
    intro s'
    have hhere : s.stack.length = rest.length + 1 ∧ s.reactor.state = .reacting := by
      simp [hstack,h.state]
    simp only [reactionsRun,if_pos hhere]
  refine .goesOn ?_ (by nofun) ?_ ?_
  · constructor
    · exact hstate.trans h.state
    · exact .inr ⟨i,hstack⟩
    · intro r
      have hflag : (s.reactor.clearBitRange reactionFromIdx reactionToIdx).isActive r = true ↔
          r ∈ ran := h.flags r
      rw [foldl_activateReaction_isActive,hran,Bool.or_eq_true,hflag,decide_eq_true_eq,
        List.mem_append]
  · have hidle : (idleReactions count ((reactionRange reactionFromIdx reactionToIdx).foldl
        (fun x i => (x.activateReaction i).2)
        (s.reactor.clearBitRange reactionFromIdx reactionToIdx))).card ≤
          (idleReactions count (s.reactor.clearBitRange reactionFromIdx reactionToIdx)).card := by
      apply idleReactions_mono
      intro r hr
      rw [foldl_activateReaction_isActive,hr,Bool.true_or]
    have hidle' : (idleReactions count
        (s.reactor.clearBitRange reactionFromIdx reactionToIdx)).card =
          (idleReactions count s.reactor).card := rfl
    rw [hidle'] at hidle
    have hmul := Nat.mul_le_mul_right (count + 1) hidle
    simp only [potential,hstack,isTurn]
    simpa using hmul
  · intro r hr
    by_cases hin : reactionFromIdx ≤ r ∧ r < reactionToIdx
    · refine .inr (List.mem_append_right _ ?_)
      rw [hran,reactionRange,List.mem_range'_1]
      omega
    · refine .inl ?_
      rw [hpending]
      exact List.mem_filter.mpr ⟨hr,decide_eq_true hin⟩

omit [DecidableEq Ev] in
theorem return_outcome (h : Looping rest ran s) {i : ℕ} (hstack : s.stack = .reacting i :: rest) :
    LoopOutcome count rest ran s .reactorReturns
      { s with stack := .looking (some i) :: rest } := by
  refine .goesOn ?_ (by nofun) ?_ (fun r hr => .inl hr)
  · refine ⟨h.state,.inl ⟨some i,rfl⟩,?_⟩
    intro r
    show s.reactor.isActive r = true ↔ r ∈ ran ++ []
    rw [List.append_nil]
    exact h.flags r
  · have hpending := pendingReactions_le count s.reactor
    simpa [potential,hstack,isTurn] using hpending

theorem program_outcome (h : Looping rest ran s) {i : ℕ} (hstack : s.stack = .reacting i :: rest)
    (hin : inLoop rest.length s a = true) (hstep : s.programStep count a = some s') :
    LoopOutcome count rest ran s a s' := by
  have hnotStopped : s.reactor.state ≠ .stopped := by simp [h.state]
  cases a with
  | start =>
    simp only [programStep,ne_eq,hnotStopped,not_false_eq_true,if_true] at hstep
    cases hstep
    exact call_outcome h hstack rfl rfl rfl hstack rfl (fun _ => rfl) (fun _ => id)
  | stop =>
    cases hstep
    refine .stopped i (by rintro ⟨⟩) hstack ?_
    simp only [Reactor.stop,if_neg hnotStopped]
  | addOnChangedBinding r ev =>
    obtain ⟨-,rfl⟩ := (whileActive_map_inv hstep).resolve_left fun h => hnotStopped h.1
    exact call_outcome h hstack rfl rfl rfl hstack rfl (fun _ => rfl) (fun _ => id)
  | addOnEventBinding r ev =>
    obtain ⟨-,rfl⟩ := (whileActive_map_inv hstep).resolve_left fun h => hnotStopped h.1
    exact call_outcome h hstack rfl rfl rfl hstack rfl (fun _ => rfl) (fun _ => id)
  | enterReactiveStmt from' to' =>
    obtain ⟨-,rfl⟩ := (whileActive_map_inv hstep).resolve_left fun h => hnotStopped h.1
    exact enterReactiveStmt_outcome h hstack from' to' _
  | change ev =>
    simp only [programStep] at hstep
    split at hstep
    · cases hstep
      exact call_outcome h hstack rfl rfl rfl hstack rfl (fun _ => rfl) (fun _ => id)
    · rename_i binding _
      cases hstep
      have hnotRunning : s.reactor.state ≠ .running := by simp [h.state]
      have hmerged : s.onChanged binding = { s with reactor := s.reactor.mergePending binding } :=
        if_pos hnotRunning
      rw [hmerged]
      exact call_outcome h hstack rfl rfl rfl hstack rfl (fun _ => rfl)
        (fun r hr => List.mem_append_left _ hr)
  | reactorReturns =>
    simp only [programStep,hstack,if_neg hnotStopped] at hstep
    cases hstep
    exact return_outcome h hstack
  | reactorThrows frames =>
    obtain ⟨_,hframes⟩ := Bool.and_eq_true_iff.mp hin
    have hzero : frames = 0 := of_decide_eq_true hframes
    subst hzero
    cases hstep
    exact call_outcome h hstack rfl rfl rfl hstack rfl (fun _ => rfl) (fun _ => id)
  | look => cases hstep

theorem step_outcome (h : Looping rest ran s) (hsound : Sound count s)
    (hin : inLoop rest.length s a = true) (hstep : step count s a = some s') :
    LoopOutcome count rest ran s a s' := by
  unfold step at hstep
  rcases h.stack with ⟨i,hstack⟩ | ⟨i,hstack⟩
  · rw [hstack] at hstep
    split at hstep
    · rename_i j below hsame
      cases hsame
      exact look_outcome h hsound hstack hstep
    · cases hstep
    · rename_i hnot _
      exact absurd rfl (hnot _ _)
  · rw [hstack] at hstep
    exact program_outcome h hstack hin hstep

/-- What a call does from a reaction of a loop whose reactor was stopped, and may have been started
again. -/
inductive OverStep (rest : List ReactorFrame) (s : ReactorSystem Ev) (i : ℕ)
    (a : ReactorAction Ev) (s' : ReactorSystem Ev) : Prop
  | stays (stack : s'.stack = .reacting i :: rest)
      (state : s'.reactor.state = s.reactor.state ∨ s'.reactor.state = .stopped)
  | calls (frame : ReactorFrame) (stack : s'.stack = frame :: .reacting i :: rest)
      (why : a = .start ∨ s.reactor.state = .running)
  | breaks (stack : s'.stack = rest) (state : s'.reactor.state = .stopped)
  | looks (stack : s'.stack = .looking (some i) :: rest) (state : s'.reactor.state = .running)
      (why : s.reactor.state = .running)

theorem over_step {i : ℕ} (hstack : s.stack = .reacting i :: rest)
    (hstate : s.reactor.state = .stopped ∨ s.reactor.state = .running)
    (hin : inLoop rest.length s a = true) (hstep : step count s a = some s') :
    a ≠ .look ∧ OverStep rest s i a s' := by
  have hprogram : s.programStep count a = some s' := by
    unfold step at hstep
    rw [hstack] at hstep
    exact hstep
  have hinactive : ¬ (s.reactor.state = .starting ∨ s.reactor.state = .reacting) := by
    rcases hstate with hstate | hstate
    · simp [hstate]
    · simp [hstate]
  cases a with
  | start =>
    refine ⟨by rintro ⟨⟩,?_⟩
    simp only [programStep] at hprogram
    split at hprogram
    · cases hprogram
      exact .stays hstack (.inl rfl)
    · cases hprogram
      exact .calls .starting (congrArg _ hstack) (.inl rfl)
  | stop =>
    refine ⟨by rintro ⟨⟩,?_⟩
    cases hprogram
    refine .stays hstack (.inr ?_)
    show s.reactor.stop.state = .stopped
    unfold Reactor.stop
    split
    · assumption
    · rfl
  | addOnChangedBinding r ev =>
    refine ⟨by rintro ⟨⟩,?_⟩
    obtain ⟨-,rfl⟩ := (whileActive_map_inv hprogram).resolve_right fun h => hinactive h.1
    exact .stays hstack (.inl rfl)
  | addOnEventBinding r ev =>
    refine ⟨by rintro ⟨⟩,?_⟩
    obtain ⟨-,rfl⟩ := (whileActive_map_inv hprogram).resolve_right fun h => hinactive h.1
    exact .stays hstack (.inl rfl)
  | enterReactiveStmt from' to' =>
    refine ⟨by rintro ⟨⟩,?_⟩
    obtain ⟨-,rfl⟩ := (whileActive_map_inv hprogram).resolve_right fun h => hinactive h.1
    exact .stays hstack (.inl rfl)
  | change ev =>
    refine ⟨by rintro ⟨⟩,?_⟩
    simp only [programStep] at hprogram
    split at hprogram
    · cases hprogram
      exact .stays hstack (.inl rfl)
    · rename_i binding _
      cases hprogram
      by_cases hrunning : s.reactor.state = .running
      · have hloop : (s.onChanged binding).stack = .looking none :: s.stack := by
          simp [onChanged,mergePending,hrunning]
        exact .calls _ (hloop.trans (congrArg _ hstack)) (.inr hrunning)
      · have hmerged : s.onChanged binding =
            { s with reactor := s.reactor.mergePending binding } := if_pos hrunning
        rw [hmerged]
        exact .stays hstack (.inl rfl)
  | reactorReturns =>
    refine ⟨by rintro ⟨⟩,?_⟩
    simp only [programStep,hstack] at hprogram
    split at hprogram
    · rename_i hstopped
      cases hprogram
      exact .breaks rfl hstopped
    · rename_i hnotStopped
      cases hprogram
      have hrunning := hstate.resolve_left hnotStopped
      exact .looks rfl hrunning hrunning
  | reactorThrows frames =>
    refine ⟨by rintro ⟨⟩,?_⟩
    obtain ⟨_,hframes⟩ := Bool.and_eq_true_iff.mp hin
    have hzero : frames = 0 := of_decide_eq_true hframes
    subst hzero
    cases hprogram
    exact .stays hstack (.inl rfl)
  | look => cases hprogram

/-- The topmost call is popped at most, and where it is, the reactor runs or is stopped. -/
def PopsOne (below : List ReactorFrame) (s' : ReactorSystem Ev) : Prop :=
  (∃ above, above ≠ [] ∧ s'.stack = above ++ below) ∨
    (s'.stack = below ∧ (s'.reactor.state = .stopped ∨ s'.reactor.state = .running))

theorem programStep_popsOne {frame : ReactorFrame} {below : List ReactorFrame}
    (hstack : s.stack = frame :: below) (hin : inLoop depth s a = true)
    (hstep : s.programStep count a = some s') : PopsOne below s' := by
  have hkept : ∀ {u : ReactorSystem Ev}, u.stack = s.stack →
      ∃ above, above ≠ [] ∧ u.stack = above ++ below := by
    intro u hu
    exact ⟨[frame],by rintro ⟨⟩,hu.trans hstack⟩
  cases a with
  | start =>
    simp only [programStep] at hstep
    split at hstep
    · cases hstep
      exact .inl (hkept rfl)
    · cases hstep
      exact .inl ⟨[.starting,frame],by rintro ⟨⟩,congrArg _ hstack⟩
  | stop =>
    cases hstep
    exact .inl (hkept rfl)
  | addOnChangedBinding r ev =>
    rcases whileActive_map_inv hstep with ⟨-,rfl⟩ | ⟨-,rfl⟩ <;> exact .inl (hkept rfl)
  | addOnEventBinding r ev =>
    rcases whileActive_map_inv hstep with ⟨-,rfl⟩ | ⟨-,rfl⟩ <;> exact .inl (hkept rfl)
  | enterReactiveStmt from' to' =>
    rcases whileActive_map_inv hstep with ⟨-,rfl⟩ | ⟨-,rfl⟩ <;> exact .inl (hkept rfl)
  | change ev =>
    simp only [programStep] at hstep
    split at hstep
    · cases hstep
      exact .inl (hkept rfl)
    · cases hstep
      simp only [onChanged]
      split
      · exact .inl (hkept rfl)
      · exact .inl ⟨[.looking none,frame],by rintro ⟨⟩,congrArg _ hstack⟩
  | reactorReturns =>
    simp only [programStep,hstack] at hstep
    split at hstep
    · rename_i below' hframe
      obtain ⟨-,rfl⟩ := List.cons.inj hframe
      unfold finishStart at hstep
      dsimp only at hstep
      split at hstep
      · cases hstep
        exact .inr ⟨rfl,.inl ‹_›⟩
      · split at hstep
        · cases hstep
          exact .inr ⟨rfl,.inr rfl⟩
        · cases hstep
    · rename_i i below' hframe
      obtain ⟨-,rfl⟩ := List.cons.inj hframe
      split at hstep
      · cases hstep
        exact .inr ⟨rfl,.inl ‹_›⟩
      · cases hstep
        exact .inl ⟨[.looking (some i)],by rintro ⟨⟩,rfl⟩
    · cases hstep
  | reactorThrows frames =>
    obtain ⟨_,hframes⟩ := Bool.and_eq_true_iff.mp hin
    have hzero : frames = 0 := of_decide_eq_true hframes
    subst hzero
    cases hstep
    exact .inl (hkept rfl)
  | look => cases hstep

theorem step_popsOne {frame : ReactorFrame} {below : List ReactorFrame}
    (hstack : s.stack = frame :: below) (hin : inLoop depth s a = true)
    (hstep : step count s a = some s') : PopsOne below s' := by
  unfold step at hstep
  split at hstep
  · rename_i i rest hlooking
    obtain ⟨-,rfl⟩ := List.cons.inj (hlooking.symm.trans hstack)
    unfold look at hstep
    split at hstep
    · unfold finishLoop at hstep
      dsimp only at hstep
      split at hstep
      · cases hstep
        exact .inr ⟨rfl,.inl ‹_›⟩
      · split at hstep
        · cases hstep
          exact .inr ⟨rfl,.inr rfl⟩
        · cases hstep
    · dsimp only at hstep
      split at hstep
      · cases hstep
        exact .inl ⟨[_],by rintro ⟨⟩,rfl⟩
      · cases hstep
        exact .inl ⟨[_],by rintro ⟨⟩,rfl⟩
  · cases hstep
  · exact programStep_popsOne hstack hin hstep

/-- The reactor was stopped in this loop. The loop will not turn again. -/
inductive LoopOver (rest : List ReactorFrame) (s : ReactorSystem Ev) : Prop
  | nested (above : List ReactorFrame) (i : ℕ) (called : above ≠ [])
      (stack : s.stack = above ++ .reacting i :: rest)
  | within (i : ℕ) (stack : s.stack = .reacting i :: rest)
      (state : s.reactor.state = .stopped ∨ s.reactor.state = .running)
  | looking (i : ℕ) (stack : s.stack = .looking (some i) :: rest)
      (state : s.reactor.state = .running)

theorem loopOver_step (h : LoopOver rest s) (hsound : Sound count s)
    (hin : inLoop rest.length s a = true) (hstep : step count s a = some s') :
    isTurn rest.length s a = false ∧ invocation rest.length s a s' = [] ∧
      (LoopOver rest s' ∨ (s'.stack = rest ∧ s'.reactor.state = .stopped)) := by
  cases h with
  | nested above i called hstack =>
    obtain ⟨frame,above,rfl⟩ := List.exists_cons_of_ne_nil called
    have hlength : s.stack.length ≠ rest.length + 1 := by
      rw [hstack]
      simp only [List.length_append,List.length_cons]
      omega
    refine ⟨?_,?_,.inl ?_⟩
    · unfold isTurn
      split
      · exact decide_eq_false hlength
      · rfl
    · unfold invocation
      split
      · exact if_neg fun hthis => hlength hthis.1
      · rfl
    · rcases step_popsOne hstack hin hstep with ⟨new,hne,hstack'⟩ | ⟨hstack',hstate⟩
      · refine .nested (new ++ above) i ?_ ?_
        · exact fun hnil => hne (List.append_eq_nil_iff.mp hnil).1
        · exact hstack'.trans (List.append_assoc new above _).symm
      · cases above with
        | nil => exact .within i hstack' hstate
        | cons g above => exact .nested (g :: above) i (by nofun) hstack'
  | within i hstack hstate =>
    obtain ⟨hnotLook,hover⟩ := over_step hstack hstate hin hstep
    refine ⟨?_,?_,?_⟩
    · cases a with
      | look => exact absurd rfl hnotLook
      | _ => rfl
    · cases a with
      | look => exact absurd rfl hnotLook
      | _ => rfl
    · cases hover with
      | stays hstack' hstate' =>
        refine .inl (.within i hstack' ?_)
        rcases hstate' with hsame | hstopped
        · rwa [hsame]
        · exact .inl hstopped
      | calls frame hstack' _ => exact .inl (.nested [frame] i (by nofun) hstack')
      | breaks hstack' hstate' => exact .inr ⟨hstack',hstate'⟩
      | looks hstack' hstate' _ => exact .inl (.looking i hstack' hstate')
  | looking i hstack hstate =>
    -- Nothing is pending while a reactor runs, and the assertion of `onChanged` fails.
    exfalso
    have hlook : s.look count (some i) rest = some s' := by
      unfold step at hstep
      rw [hstack] at hstep
      split at hstep
      · rename_i hframe
        cases hframe
        exact hstep
      · cases hstep
      · rename_i hnot _
        exact absurd rfl (hnot _ _)
    have hprocessed := (processPendingBindings_spec hsound.wired).state
    rw [hstate] at hprocessed
    unfold look at hlook
    cases hnext : s.reactor.nextReaction count (some i) with
    | none => simp [hnext,finishLoop,hprocessed] at hlook
    | some j =>
      have hreacting := hsound.steady.reacting hnext
      rw [hstate] at hreacting
      cases hreacting

omit [DecidableEq Ev] in
theorem inLoop_lt (hin : inLoop depth s a = true) : depth < s.stack.length :=
  of_decide_eq_true (Bool.and_eq_true_iff.mp hin).1

variable {as : List (ReactorAction Ev)}

theorem nil_of_exited (hstack : s.stack = rest)
    (hin : Run.Along (step count) (fun u a => inLoop rest.length u a = true) s as)
    (hrun : Run.exec (step count) s as = some t) : as = [] := by
  cases as with
  | nil => rfl
  | cons a as =>
    obtain ⟨u,hu,_⟩ := Run.exec_cons_inv hrun
    simp only [Run.Along,hu] at hin
    have hlt := inLoop_lt hin.1
    rw [hstack] at hlt
    exact absurd hlt (lt_irrefl _)

theorem turns_cons (h : step count s a = some s') (as : List (ReactorAction Ev)) :
    turns count depth s (a :: as) =
      (if isTurn depth s a then 1 else 0) + turns count depth s' as := by
  unfold turns
  rw [Run.collect_cons _ h,List.length_append]
  congr 1
  split <;> rfl

theorem loopOver_exec (h : LoopOver rest s) (hsound : Sound count s)
    (hin : Run.Along (step count) (fun u a => inLoop rest.length u a = true) s as)
    (hrun : Run.exec (step count) s as = some t) :
    turns count rest.length s as = 0 ∧ invoked count rest.length s as = [] ∧
      (t.stack.length ≤ rest.length → t.stack = rest ∧ t.reactor.state = .stopped) := by
  induction as generalizing s with
  | nil =>
    cases hrun
    refine ⟨rfl,rfl,?_⟩
    intro hlength
    exfalso
    cases h with
    | nested above i _ hstack =>
      rw [hstack,List.length_append,List.length_cons] at hlength
      omega
    | within i hstack _ =>
      rw [hstack,List.length_cons] at hlength
      omega
    | looking i hstack _ =>
      rw [hstack,List.length_cons] at hlength
      omega
  | cons a as ih =>
    obtain ⟨u,hu,hrest⟩ := Run.exec_cons_inv hrun
    simp only [Run.Along,hu] at hin
    obtain ⟨hturn,hinvocation,hnext⟩ := loopOver_step h hsound hin.1 hu
    have hinvoked : invoked count rest.length s (a :: as) = invoked count rest.length u as := by
      unfold invoked
      rw [Run.collect_cons _ hu,hinvocation,List.nil_append]
    rw [turns_cons hu,hturn,hinvoked]
    rcases hnext with hover | ⟨hstack,hstate⟩
    · obtain ⟨hturns,hnone,hexit⟩ := ih hover (sound_step hsound hu) hin.2 hrest
      exact ⟨by simp [hturns],hnone,hexit⟩
    · obtain rfl := nil_of_exited hstack hin.2 hrest
      cases hrest
      exact ⟨rfl,rfl,fun _ => ⟨hstack,hstate⟩⟩

/-- What a loop promises from a state in which the reactions in `ran` ran already. -/
structure LoopRun (count : ℕ) (rest : List ReactorFrame) (ran : List ℕ) (s : ReactorSystem Ev)
    (as : List (ReactorAction Ev)) (t : ReactorSystem Ev) : Prop where
  once : (invoked count rest.length s as).Nodup
  fresh : ∀ j ∈ invoked count rest.length s as, j ∉ ran
  bounded : turns count rest.length s as ≤ potential count s + 1
  complete : t.stack.length ≤ rest.length →
    t.stack = rest ∧ (∀ r < count, r ∉ t.reactor.pendingReactionMap) ∧
      (t.reactor.state = .stopped ∨ ∀ r < count,
        r ∈ ran ++ reactionsRunIn count rest.length s as ∨
          Run.Always (step count) (fun u => r ∉ u.reactor.pendingReactionMap) s as)

theorem loopRun_of_looping (h : Looping rest ran s) (hsound : Sound count s)
    (hin : Run.Along (step count) (fun u a => inLoop rest.length u a = true) s as)
    (hrun : Run.exec (step count) s as = some t) : LoopRun count rest ran s as t := by
  induction as generalizing s ran with
  | nil =>
    cases hrun
    refine ⟨List.nodup_nil,by nofun,Nat.zero_le _,?_⟩
    intro hlength
    exfalso
    rcases h.stack with ⟨i,hstack⟩ | ⟨i,hstack⟩
    · rw [hstack,List.length_cons] at hlength
      omega
    · rw [hstack,List.length_cons] at hlength
      omega
  | cons a as ih =>
    obtain ⟨u,hu,hrest⟩ := Run.exec_cons_inv hrun
    simp only [Run.Along,hu] at hin
    have hsound' := sound_step hsound hu
    have hinvoked : invoked count rest.length s (a :: as) =
        invocation rest.length s a u ++ invoked count rest.length u as :=
      Run.collect_cons _ hu as
    have hreactions : reactionsRunIn count rest.length s (a :: as) =
        reactionsRun rest.length s a u ++ reactionsRunIn count rest.length u as :=
      Run.collect_cons _ hu as
    cases step_outcome h hsound hin.1 hu with
    | goesOn hlooping hfresh hpotential hpending =>
      have hnext := ih hlooping hsound' hin.2 hrest
      have hran : ∀ j ∈ invocation rest.length s a u, j ∈ reactionsRun rest.length s a u := by
        intro j hj
        cases a with
        | look => exact hj
        | _ => cases hj
      constructor
      · rw [hinvoked,List.nodup_append]
        refine ⟨?_,hnext.once,?_⟩
        · unfold invocation
          split
          · split
            · exact List.nodup_singleton _
            · exact List.nodup_nil
          · exact List.nodup_nil
        · intro j hj k hk hjk
          subst hjk
          exact hnext.fresh j hk (List.mem_append_right _ (hran j hj))
      · intro j hj
        rw [hinvoked,List.mem_append] at hj
        rcases hj with hj | hj
        · exact hfresh j hj
        · exact fun hold => hnext.fresh j hj (List.mem_append_left _ hold)
      · have hbounded := hnext.bounded
        rw [turns_cons hu]
        omega
      · intro hlength
        obtain ⟨hstack,hidle,hcomplete⟩ := hnext.complete hlength
        refine ⟨hstack,hidle,hcomplete.imp_right ?_⟩
        intro hall r hr
        rw [hreactions,← List.append_assoc]
        rcases hall r hr with hmem | halways
        · exact .inl hmem
        · by_cases hmarked : r ∈ s.reactor.pendingReactionMap
          · rcases hpending r hmarked with hstill | hmem
            · exact absurd hstill halways.head
            · exact .inl (List.mem_append_left _ hmem)
          · exact .inr (.cons hmarked hu halways)
    | stopped i hnotLook hstack hstate =>
      obtain ⟨hturns,hnone,hexit⟩ :=
        loopOver_exec (.within i hstack (.inl hstate)) hsound' hin.2 hrest
      have hinvocation : invocation rest.length s a u = [] := by
        cases a with
        | look => exact absurd rfl hnotLook
        | _ => rfl
      have hturn : isTurn rest.length s a = false := by
        cases a with
        | look => exact absurd rfl hnotLook
        | _ => rfl
      rw [hinvocation,hnone,List.append_nil] at hinvoked
      constructor
      · rw [hinvoked]
        exact List.nodup_nil
      · rw [hinvoked]
        nofun
      · rw [turns_cons hu,hturns,hturn]
        exact Nat.zero_le _
      · intro hlength
        obtain ⟨hstack',hstate'⟩ := hexit hlength
        have hempty := (Run.exec_invariant (fun _ _ _ => sound_step) hsound' hrest).steady.stopped
          hstate'
        refine ⟨hstack',?_,.inl hstate'⟩
        rw [hempty.pendingReactionMap]
        nofun
    | exits hlook hstack hstate hpending hidle =>
      obtain rfl := nil_of_exited hstack hin.2 hrest
      cases hrest
      subst hlook
      have hinvocation : invocation rest.length s .look t = [] := by
        unfold invocation
        split
        · rename_i i below _ hframe
          refine if_neg ?_
          rintro ⟨-,hlength⟩
          rw [hstack] at hframe
          rw [hframe,List.length_cons] at hlength
          omega
        · rfl
      have hnone : invoked count rest.length s [.look] = [] := by
        rw [hinvoked,hinvocation]
        rfl
      constructor
      · rw [hnone]
        exact List.nodup_nil
      · rw [hnone]
        nofun
      · rw [turns_cons hu]
        have hone : (if isTurn rest.length s (.look : ReactorAction Ev) then 1 else 0) ≤ 1 := by
          split
          · exact le_rfl
          · exact Nat.zero_le _
        have hzero : turns count rest.length t [] = 0 := rfl
        omega
      · intro _
        have hidle' : ∀ r < count, r ∉ t.reactor.pendingReactionMap := by
          rw [hpending]
          exact hidle
        exact ⟨hstack,hidle',.inr fun r hr => .inr (.cons (hidle r hr) hu (hidle' r hr))⟩

theorem reacting_of_looking (h : Looping rest ran s) (hsound : Sound count s)
    (hin : Run.Along (step count) (fun u a => inLoop rest.length u a = true) s as)
    (hrun : Run.exec (step count) s as = some t) (hstart : .start ∉ as)
    (hstack : t.stack = .looking i :: rest) : t.reactor.state = .reacting := by
  have hinvariant : ∀ (u : ReactorSystem Ev) (a : ReactorAction Ev) (u' : ReactorSystem Ev),
      Sound count u ∧ ((∃ ran, Looping rest ran u) ∨ u.stack = rest ∨
        ∃ i, u.stack = .reacting i :: rest ∧ u.reactor.state = .stopped) →
      inLoop rest.length u a = true ∧ a ≠ .start → step count u a = some u' →
      Sound count u' ∧ ((∃ ran, Looping rest ran u') ∨ u'.stack = rest ∨
        ∃ i, u'.stack = .reacting i :: rest ∧ u'.reactor.state = .stopped) := by
    rintro u a u' ⟨hsound,hloop⟩ ⟨hin,hnotStart⟩ hstep
    refine ⟨sound_step hsound hstep,?_⟩
    rcases hloop with ⟨ran,hlooping⟩ | hexited | ⟨i,hstack,hstate⟩
    · cases step_outcome hlooping hsound hin hstep with
      | goesOn hlooping' _ _ _ => exact .inl ⟨_,hlooping'⟩
      | stopped i _ hstack hstate => exact .inr (.inr ⟨i,hstack,hstate⟩)
      | exits _ hstack _ _ _ => exact .inr (.inl hstack)
    · have hlt := inLoop_lt hin
      rw [hexited] at hlt
      exact absurd hlt (lt_irrefl _)
    · have hnotRunning : u.reactor.state ≠ .running := by simp [hstate]
      cases (over_step hstack (.inl hstate) hin hstep).2 with
      | stays hstack' hstate' =>
        rw [hstate,or_self] at hstate'
        exact .inr (.inr ⟨i,hstack',hstate'⟩)
      | calls _ _ why => exact absurd why (not_or.mpr ⟨hnotStart,hnotRunning⟩)
      | breaks hstack' _ => exact .inr (.inl hstack')
      | looks _ _ why => exact absurd why hnotRunning
  have hboth := Run.exec_induction hinvariant ⟨hsound,.inl ⟨ran,h⟩⟩ (hin.and_ne hstart) hrun
  rcases hboth.2 with ⟨ran',hlooping⟩ | hexited | ⟨j,hreacting,_⟩
  · exact hlooping.state
  · rw [hexited] at hstack
    have hlength := congrArg List.length hstack
    simp at hlength
  · rw [hreacting] at hstack
    cases hstack

theorem looping_of_change {ev : Ev} (hflagged : Flagged s.reactor)
    (hchange : step count s (.change ev) = some s') (hloop : s'.stack = .looking none :: s.stack) :
    Looping s.stack [] s' := by
  have hne : s'.stack ≠ s.stack := by
    intro hsame
    have hlength := congrArg List.length (hloop.symm.trans hsame)
    simp at hlength
  have hprogram : s.programStep count (.change ev) = some s' := by
    unfold step at hchange
    split at hchange
    · rename_i hlook
      cases hlook
    · cases hchange
    · exact hchange
  simp only [programStep] at hprogram
  split at hprogram
  · cases hprogram
    exact absurd rfl hne
  · rename_i binding _
    cases hprogram
    by_cases hrunning : s.reactor.state = .running
    · have hbegun : s.onChanged binding =
          { s with
            reactor := { s.reactor.mergePending binding with
              state := .reacting, activeReactions := [], activeBindings := [] }
            stack := .looking none :: s.stack } := if_neg fun hnot => hnot hrunning
      rw [hbegun]
      refine ⟨rfl,.inl ⟨none,rfl⟩,?_⟩
      intro r
      have hidle : s.reactor.isActive r = false := hflagged.idle (.inr hrunning) r
      show s.reactor.isActive r = true ↔ r ∈ []
      simp [hidle]
    · have hmerged : s.onChanged binding =
          { s with reactor := s.reactor.mergePending binding } := if_pos hrunning
      rw [hmerged] at hne
      exact absurd rfl hne

/-- What is promised of a loop from its begin in `s`. -/
structure LoopKept (count : ℕ) (rest : List ReactorFrame) (s : ReactorSystem Ev)
    (as : List (ReactorAction Ev)) (t : ReactorSystem Ev) : Prop where
  once : (invoked count rest.length s as).Nodup
  bounded : turns count rest.length s as ≤ (count + 1) ^ 2
  goesOn : .start ∉ as → ∀ i, t.stack = .looking i :: rest →
    (step count t .look).isSome = true
  complete : t.stack.length ≤ rest.length →
    t.stack = rest ∧ (∀ r < count, r ∉ t.reactor.pendingReactionMap) ∧
      (t.reactor.state = .stopped ∨ ∀ r < count,
        r ∈ reactionsRunIn count rest.length s as ∨
          Run.Always (step count) (fun u => r ∉ u.reactor.pendingReactionMap) s as)

/-- After any run, a loop invokes each reaction once at most and ends after a bounded number of
turns, whatever its reactions do. When it is gone, no reaction is pending, and a reaction that was
pending at any time in the loop has run in it, unless the reactor was stopped. -/
theorem reactionLoop_kept {before during : List (ReactorAction Ev)} {ev : Ev}
    (hbefore : Run.exec (step count) {} before = some s)
    (hchange : step count s (.change ev) = some s')
    (hloop : s'.stack = .looking none :: s.stack)
    (hin : Run.Along (step count) (fun u a => inLoop s.stack.length u a = true) s' during)
    (hduring : Run.exec (step count) s' during = some t) :
    LoopKept count s.stack s' during t := by
  obtain ⟨hsound,hflagged⟩ := flagged_exec hbefore
  have hsound' := sound_step hsound hchange
  have hlooping := looping_of_change hflagged hchange hloop
  have hrun := loopRun_of_looping hlooping hsound' hin hduring
  constructor
  · exact hrun.once
  · exact hrun.bounded.trans (potential_le count s')
  · intro hstart i hstack
    have hreacting := reacting_of_looking hlooping hsound' hin hduring hstart hstack
    exact look_enabled (sound_exec hsound' hduring) hstack hreacting
  · exact hrun.complete

/-- Two reactions that change what the other one reads. -/
def mutualStart : List (ReactorAction ℕ) :=
  [.start,.addOnChangedBinding 0 7,.addOnChangedBinding 1 8,.reactorReturns]

def mutualLoop : List (ReactorAction ℕ) :=
  [.look,.addOnChangedBinding 0 7,.change 8,.reactorReturns,.look,.addOnChangedBinding 1 8,
    .change 7,.reactorReturns,.look]

theorem reactionLoop_kept_mutual : ∃ s s' t : ReactorSystem ℕ,
    Run.exec (step 2) {} mutualStart = some s ∧ step 2 s (.change 7) = some s' ∧
      Run.exec (step 2) s' mutualLoop = some t ∧ invoked 2 0 s' mutualLoop = [0,1] ∧
      t.stack = [] ∧ LoopKept 2 [] s' mutualLoop t := by
  refine ⟨_,_,_,rfl,rfl,rfl,rfl,rfl,?_⟩
  exact @reactionLoop_kept ℕ _ 2 _ _ _ mutualStart mutualLoop 7 rfl rfl rfl (by decide) rfl

end Jancy.Rtl.ReactorSystem
