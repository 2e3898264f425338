import Jancy.Lib.Run

/-! `ReactorImpl`: bindings, reactions, and the loop that runs pending reactions. Bit maps are the
lists of their set bits. -/
namespace Jancy.Rtl

inductive ReactorState where
  | stopped | starting | running | reacting
  deriving DecidableEq, Repr

/-- An `onchanged` binding stands in the binding map; an `onevent` binding does not. -/
inductive BindingKind where
  | onChanged | onEvent
  deriving DecidableEq, Repr

structure Binding (Ev : Type) where
  event : Ev
  kind : BindingKind
  reactionMap : List ℕ := []
  active : Bool := false
  deriving DecidableEq, Repr

structure Reaction where
  bindingArray : List ℕ := []
  active : Bool := false
  deriving DecidableEq, Repr

/-- Bindings go by number; `bindings` are those in `m_bindingList`. -/
structure Reactor (Ev : Type) where
  state : ReactorState := .stopped
  reactions : ℕ → Reaction := fun _ => {}
  pendingReactionMap : List ℕ := []
  pendingOnChangedBindings : List (ℕ × Ev) := []
  pendingOnEventBindings : List (ℕ × Ev) := []
  bindings : ℕ → Option (Binding Ev) := fun _ => none
  nextBinding : ℕ := 0
  bindingMap : Ev → Option ℕ := fun _ => none
  activeReactions : List ℕ := []
  activeBindings : List ℕ := []

namespace Reactor

variable {Ev : Type} [DecidableEq Ev]

def setBinding (x : Reactor Ev) (b : ℕ) (binding : Binding Ev) : Reactor Ev :=
  { x with bindings := Function.update x.bindings b (some binding) }

/-- The body of the loop over the bindings of a reaction. -/
def activateBinding (reactionIdx : ℕ) (x : Reactor Ev) (b : ℕ) : Reactor Ev :=
  match x.bindings b with
  | none => x
  | some binding =>
      if binding.active then x
      else
        { x with
          activeBindings := x.activeBindings ++ [b]
          bindings := Function.update x.bindings b (some { binding with
            reactionMap := binding.reactionMap.filter (· ≠ reactionIdx), active := true }) }

/-- `activateReaction`, for a reaction that is not active yet. -/
def activate (x : Reactor Ev) (reactionIdx : ℕ) : Reactor Ev :=
  let x := (x.reactions reactionIdx).bindingArray.foldl (activateBinding reactionIdx) x
  { x with
    activeReactions := x.activeReactions ++ [reactionIdx]
    reactions := Function.update x.reactions reactionIdx { active := true } }

/-- The result is `false` for a loop that was detected. -/
def activateReaction (x : Reactor Ev) (reactionIdx : ℕ) : Bool × Reactor Ev :=
  if (x.reactions reactionIdx).active then (false,x) else (true,x.activate reactionIdx)

/-- A new binding, and the reactor with it in the list. -/
def subscribe (x : Reactor Ev) (event : Ev) (kind : BindingKind) : ℕ × Reactor Ev :=
  (x.nextBinding,{ x with
    bindings := Function.update x.bindings x.nextBinding (some { event, kind })
    nextBinding := x.nextBinding + 1 })

/-- `m_bindingMap.visit`, with a new binding where there is none yet. -/
def visitBinding (x : Reactor Ev) (event : Ev) : ℕ × Reactor Ev :=
  match x.bindingMap event with
  | some b => (b,x)
  | none =>
      let (b,x) := x.subscribe event .onChanged
      (b,{ x with bindingMap := Function.update x.bindingMap event (some b) })

def appendBinding (x : Reactor Ev) (reactionIdx b : ℕ) : Reactor Ev :=
  let reaction := x.reactions reactionIdx
  { x with
    reactions := Function.update x.reactions reactionIdx
      { reaction with bindingArray := reaction.bindingArray ++ [b] } }

/-- The body of the first loop of `processPendingBindings`. -/
def bindOnChanged (x : Reactor Ev) (pending : ℕ × Ev) : Reactor Ev :=
  let (b,x) := x.visitBinding pending.2
  match x.bindings b with
  | none => x
  | some binding =>
      if pending.1 ∈ binding.reactionMap then x
      else
        (x.setBinding b { binding with
          reactionMap := pending.1 :: binding.reactionMap }).appendBinding pending.1 b

/-- The body of its second loop. -/
def bindOnEvent (x : Reactor Ev) (pending : ℕ × Ev) : Reactor Ev :=
  let (b,x) := x.subscribe pending.2 .onEvent
  x.appendBinding pending.1 b

def unsubscribe (x : Reactor Ev) (b : ℕ) (binding : Binding Ev) : Reactor Ev :=
  { x with
    bindingMap :=
      if binding.kind = .onChanged then Function.update x.bindingMap binding.event none
      else x.bindingMap
    bindings := Function.update x.bindings b none }

/-- The body of its third loop: a binding without reactions goes. -/
def releaseBinding (x : Reactor Ev) (b : ℕ) : Reactor Ev :=
  match x.bindings b with
  | none => x
  | some binding =>
      if binding.reactionMap ≠ [] then x.setBinding b { binding with active := false }
      else x.unsubscribe b binding

def releaseReaction (x : Reactor Ev) (reactionIdx : ℕ) : Reactor Ev :=
  { x with
    reactions := Function.update x.reactions reactionIdx
      { x.reactions reactionIdx with active := false } }

def processPendingBindings (x : Reactor Ev) : Reactor Ev :=
  let x := x.pendingOnChangedBindings.foldl bindOnChanged x
  let x := x.pendingOnEventBindings.foldl bindOnEvent x
  let x := x.activeBindings.foldl releaseBinding x
  let x := x.activeReactions.foldl releaseReaction x
  { x with
    activeBindings := []
    activeReactions := []
    pendingOnChangedBindings := []
    pendingOnEventBindings := [] }

/-- The handlers of the bindings leave their events. `m_activeReactionArray` stays. -/
def stop (x : Reactor Ev) : Reactor Ev :=
  if x.state = .stopped then x
  else
    { x with
      reactions := fun _ => {}
      pendingReactionMap := []
      pendingOnChangedBindings := []
      pendingOnEventBindings := []
      bindings := fun _ => none
      bindingMap := fun _ => none
      activeBindings := []
      state := .stopped }

/-- The guard of the next three functions; `none` is a failed assertion. -/
def whileActive (x y : Reactor Ev) : Option (Reactor Ev) :=
  match x.state with
  | .stopped => some x
  | .running => none
  | .starting | .reacting => some y

def addOnChangedBinding (x : Reactor Ev) (reactionIdx : ℕ) (event : Ev) : Option (Reactor Ev) :=
  x.whileActive { x with
    pendingOnChangedBindings := x.pendingOnChangedBindings ++ [(reactionIdx,event)] }

def addOnEventBinding (x : Reactor Ev) (reactionIdx : ℕ) (event : Ev) : Option (Reactor Ev) :=
  x.whileActive { x with
    pendingOnEventBindings := x.pendingOnEventBindings ++ [(reactionIdx,event)] }

/-- The reactions of the statement, in the order of their indices. -/
def reactionRange (reactionFromIdx reactionToIdx : ℕ) : List ℕ :=
  List.range' reactionFromIdx (reactionToIdx - reactionFromIdx)

def clearBitRange (x : Reactor Ev) (reactionFromIdx reactionToIdx : ℕ) : Reactor Ev :=
  { x with
    pendingReactionMap := x.pendingReactionMap.filter fun i =>
      ¬ (reactionFromIdx ≤ i ∧ i < reactionToIdx) }

def clearBit (x : Reactor Ev) (reactionIdx : ℕ) : Reactor Ev :=
  { x with pendingReactionMap := x.pendingReactionMap.filter (· ≠ reactionIdx) }

def enterReactiveStmt (x : Reactor Ev) (reactionFromIdx reactionToIdx : ℕ) :
    Option (Reactor Ev) :=
  x.whileActive <| (reactionRange reactionFromIdx reactionToIdx).foldl
    (fun x i => (x.activateReaction i).2) (x.clearBitRange reactionFromIdx reactionToIdx)

/-- What `onChanged` does first. -/
def mergePending (x : Reactor Ev) (binding : Binding Ev) : Reactor Ev :=
  { x with pendingReactionMap := x.pendingReactionMap ++ binding.reactionMap }

/-- `findBit`, for the first `count` bits. -/
def findBit (map : List ℕ) (start count : ℕ) : Option ℕ :=
  (List.range count).find? fun i => decide (start ≤ i) && decide (i ∈ map)

/-- The next pending reaction after `reactionIdx`, with the wrap. -/
def nextReaction (x : Reactor Ev) (count : ℕ) (reactionIdx : Option ℕ) : Option ℕ :=
  match findBit x.pendingReactionMap (reactionIdx.elim 0 (· + 1)) count with
  | some i => some i
  | none => findBit x.pendingReactionMap 0 count

end Reactor

/-- What is on the stack: `start` or `reactionLoop` with the reactor function above it, or the loop
about to look for the next reaction. -/
inductive ReactorFrame where
  | starting
  | reacting (reactionIdx : ℕ)
  | looking (reactionIdx : Option ℕ)
  deriving DecidableEq, Repr

/-- `reads` are the properties that a reaction read, as told to `addOnChangedBinding`, in the start
or loop in which it was last activated, and since. -/
structure ReactorSystem (Ev : Type) where
  reactor : Reactor Ev := {}
  stack : List ReactorFrame := []
  reads : ℕ → List Ev := fun _ => []

/-- What the code of the program does: calls, property changes, and the ends of calls of the
reactor function. `look` is a turn of the reaction loop itself. -/
inductive ReactorAction (Ev : Type) where
  | start
  | stop
  | addOnChangedBinding (reactionIdx : ℕ) (event : Ev)
  | addOnEventBinding (reactionIdx : ℕ) (event : Ev)
  | enterReactiveStmt (reactionFromIdx reactionToIdx : ℕ)
  | change (event : Ev)
  | reactorReturns
  | reactorThrows (frames : ℕ)
  | look
  deriving DecidableEq, Repr

namespace ReactorSystem

variable {Ev : Type} [DecidableEq Ev]

/-- What a reaction read so far in the current start or loop. -/
def pendingReads (x : Reactor Ev) (reactionIdx : ℕ) : List Ev :=
  (x.pendingOnChangedBindings.filter (·.1 = reactionIdx)).map Prod.snd

/-- The record of reads follows the activations. -/
def activated (x : Reactor Ev) (reads : ℕ → List Ev) (reactionIdx : ℕ) : ℕ → List Ev :=
  if (x.reactions reactionIdx).active then reads
  else Function.update reads reactionIdx (pendingReads x reactionIdx)

def activatedAll (reads : ℕ → List Ev) : List ℕ → Reactor Ev → ℕ → List Ev
  | [], _ => reads
  | i :: is, x => activatedAll (activated x reads i) is (x.activateReaction i).2

/-- The end of `start`; `none` is a failed assertion. -/
def finishStart (s : ReactorSystem Ev) (rest : List ReactorFrame) : Option (ReactorSystem Ev) :=
  if s.reactor.state = .stopped then some { s with stack := rest }
  else
    let x := s.reactor.processPendingBindings
    if x.state = .starting then
      some { s with reactor := { x with state := .running }, stack := rest }
    else none

/-- The end of `reactionLoop`, and of `onChanged`. -/
def finishLoop (s : ReactorSystem Ev) (rest : List ReactorFrame) : Option (ReactorSystem Ev) :=
  let x := s.reactor.processPendingBindings
  if x.state = .stopped then some { s with reactor := x, stack := rest }
  else if x.state = .reacting then
    some { s with reactor := { x with state := .running }, stack := rest }
  else none

def onChanged (s : ReactorSystem Ev) (binding : Binding Ev) : ReactorSystem Ev :=
  let x := s.reactor.mergePending binding
  if x.state ≠ .running then { s with reactor := x }
  else
    { s with
      reactor := { x with state := .reacting, activeReactions := [], activeBindings := [] }
      stack := .looking none :: s.stack }

/-- A turn of the loop. -/
def look (count : ℕ) (s : ReactorSystem Ev) (reactionIdx : Option ℕ)
    (rest : List ReactorFrame) : Option (ReactorSystem Ev) :=
  match s.reactor.nextReaction count reactionIdx with
  | none => s.finishLoop rest
  | some i =>
      let x := s.reactor.clearBit i
      let reads := activated x s.reads i
      match x.activateReaction i with
      | (false,x) => some ⟨x,.looking (some i) :: rest,reads⟩
      | (true,x) => some ⟨x,.reacting i :: rest,reads⟩

/-- What the code of the program does next. -/
def programStep (count : ℕ) (s : ReactorSystem Ev) :
    ReactorAction Ev → Option (ReactorSystem Ev)
  | .start =>
      if s.reactor.state ≠ .stopped then some s
      else
        some { s with
          reactor := { s.reactor with state := .starting }
          stack := .starting :: s.stack }
  | .stop =>
      some { s with
        reactor := s.reactor.stop
        reads := if s.reactor.state = .stopped then s.reads else fun _ => [] }
  | .addOnChangedBinding reactionIdx event =>
      if reactionIdx < count then
        (s.reactor.addOnChangedBinding reactionIdx event).map fun x =>
          { s with
            reactor := x
            reads :=
              if s.reactor.state = .stopped then s.reads
              else Function.update s.reads reactionIdx (s.reads reactionIdx ++ [event]) }
      else none
  | .addOnEventBinding reactionIdx event =>
      if reactionIdx < count then
        (s.reactor.addOnEventBinding reactionIdx event).map fun x => { s with reactor := x }
      else none
  | .enterReactiveStmt reactionFromIdx reactionToIdx =>
      if reactionToIdx ≤ count then
        (s.reactor.enterReactiveStmt reactionFromIdx reactionToIdx).map fun x =>
          { s with
            reactor := x
            reads :=
              if s.reactor.state = .stopped then s.reads
              else activatedAll s.reads (Reactor.reactionRange reactionFromIdx reactionToIdx)
                (s.reactor.clearBitRange reactionFromIdx reactionToIdx) }
      else none
  | .change event =>
      match (s.reactor.bindingMap event).bind s.reactor.bindings with
      | none => some s
      | some binding => some (s.onChanged binding)
  | .reactorReturns =>
      match s.stack with
      | .starting :: rest => s.finishStart rest
      | .reacting i :: rest =>
          if s.reactor.state = .stopped then some { s with stack := rest }
          else some { s with stack := .looking (some i) :: rest }
      | _ => none
  | .reactorThrows frames => some { s with stack := s.stack.drop frames }
  | .look => none

/-- `count` is the number of reactions of the reactor class. -/
def step (count : ℕ) (s : ReactorSystem Ev) (a : ReactorAction Ev) :
    Option (ReactorSystem Ev) :=
  match s.stack, a with
  | .looking i :: rest, .look => s.look count i rest
  | .looking _ :: _, _ => none
  | _, a => s.programStep count a

end ReactorSystem
end Jancy.Rtl
