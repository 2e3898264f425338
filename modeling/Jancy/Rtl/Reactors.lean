import Jancy.Rtl.ReactorActive

/-! Reactors that share events: the handlers in the multicasts, the snapshots being called, and the
calls of `start`, `stop` and `restart` in between. -/
namespace Jancy.Rtl

/-- A handler in a multicast. That of an `onchanged` binding is `onChangedThunk`, bound to the
reactor and to the binding. -/
structure EventHandler where
  reactor : ℕ
  binding : ℕ
  kind : BindingKind
  deriving DecidableEq, Repr

structure Wires (Ev : Type) where
  reactor : Reactor Ev
  handlers : Ev → List EventHandler

namespace Wires

variable {Ev : Type} [DecidableEq Ev]

def addHandler (handlers : Ev → List EventHandler) (event : Ev) (h : EventHandler) :
    Ev → List EventHandler :=
  Function.update handlers event (handlers event ++ [h])

def removeHandler (handlers : Ev → List EventHandler) (event : Ev) (h : EventHandler) :
    Ev → List EventHandler :=
  Function.update handlers event ((handlers event).filter (· ≠ h))

/-- The first loop of `processPendingBindings` subscribes where the event has no binding yet. -/
def bindOnChanged (k : ℕ) (w : Wires Ev) (pending : ℕ × Ev) : Wires Ev :=
  { reactor := w.reactor.bindOnChanged pending
    handlers :=
      if w.reactor.bindingMap pending.2 = none then
        addHandler w.handlers pending.2 ⟨k,w.reactor.nextBinding,.onChanged⟩
      else w.handlers }

/-- Its second loop subscribes always. -/
def bindOnEvent (k : ℕ) (w : Wires Ev) (pending : ℕ × Ev) : Wires Ev :=
  { reactor := w.reactor.bindOnEvent pending
    handlers := addHandler w.handlers pending.2 ⟨k,w.reactor.nextBinding,.onEvent⟩ }

/-- Its third loop unsubscribes bindings without reactions. -/
def releaseBinding (k : ℕ) (w : Wires Ev) (b : ℕ) : Wires Ev :=
  { reactor := w.reactor.releaseBinding b
    handlers :=
      match w.reactor.bindings b with
      | none => w.handlers
      | some binding =>
          if binding.reactionMap ≠ [] then w.handlers
          else removeHandler w.handlers binding.event ⟨k,b,binding.kind⟩ }

def processPendingBindings (k : ℕ) (w : Wires Ev) : Wires Ev :=
  let w₁ := w.reactor.pendingOnChangedBindings.foldl (bindOnChanged k) w
  let w₂ := w₁.reactor.pendingOnEventBindings.foldl (bindOnEvent k) w₁
  let w₃ := w₂.reactor.activeBindings.foldl (releaseBinding k) w₂
  { reactor := w.reactor.processPendingBindings, handlers := w₃.handlers }

/-- The body of the loop of `stop`. -/
def dropHandler (k : ℕ) (w : Wires Ev) (handlers : Ev → List EventHandler) (b : ℕ) :
    Ev → List EventHandler :=
  match w.reactor.bindings b with
  | none => handlers
  | some binding => removeHandler handlers binding.event ⟨k,b,binding.kind⟩

def stop (k : ℕ) (w : Wires Ev) : Wires Ev :=
  if w.reactor.state = .stopped then w
  else
    { reactor := w.reactor.stop
      handlers := (List.range w.reactor.nextBinding).foldl (w.dropHandler k) w.handlers }

end Wires

/-- What is on the stack: `start` with the constructor of the user data or the reactor function
above it, `reactionLoop` likewise, an `onevent` handler, a snapshot with the handlers it has still
to call. -/
inductive ReactorsFrame where
  | constructing (k : ℕ)
  | starting (k : ℕ)
  | reacting (k reactionIdx : ℕ)
  | looking (k : ℕ) (reactionIdx : Option ℕ)
  | handling
  | calling (handlers : List EventHandler)
  deriving DecidableEq, Repr

/-- Failed assertions of `start` and `onChanged`, and two more things that must not happen: a change
notification for a deleted binding, and a reaction of a stopped reactor. -/
inductive ReactorFault where
  | startState | onChangedState | deletedBinding | stoppedReaction
  deriving DecidableEq, Repr

structure Reactors (Ev : Type) where
  reactors : ℕ → Reactor Ev := fun _ => {}
  handlers : Ev → List EventHandler := fun _ => []
  stack : List ReactorsFrame := []
  fault : Option ReactorFault := none

/-- What the code of the program does. `fire` calls an event, also that of a property that changes.
`returns` is the end of a constructor, a reactor function or a handler; `look` and `call` are turns
of reaction loops and of snapshots. -/
inductive ReactorsAction (Ev : Type) where
  | start (k : ℕ)
  | stop (k : ℕ)
  | restart (k : ℕ)
  | fire (event : Ev)
  | addOnChangedBinding (reactionIdx : ℕ) (event : Ev)
  | addOnEventBinding (reactionIdx : ℕ) (event : Ev)
  | enterReactiveStmt (reactionFromIdx reactionToIdx : ℕ)
  | returns
  | look
  | call
  deriving DecidableEq, Repr

namespace Reactors

variable {Ev : Type} [DecidableEq Ev]

def setReactor (s : Reactors Ev) (k : ℕ) (x : Reactor Ev) : Reactors Ev :=
  { s with reactors := Function.update s.reactors k x }

def wires (s : Reactors Ev) (k : ℕ) : Wires Ev := ⟨s.reactors k,s.handlers⟩

def setWires (s : Reactors Ev) (k : ℕ) (w : Wires Ev) : Reactors Ev :=
  { s with reactors := Function.update s.reactors k w.reactor, handlers := w.handlers }

/-- `start`, up to the constructor of the user data. -/
def start (s : Reactors Ev) (k : ℕ) : Reactors Ev :=
  if (s.reactors k).state ≠ .stopped then s else { s with stack := .constructing k :: s.stack }

def stop (s : Reactors Ev) (k : ℕ) : Reactors Ev := s.setWires k ((s.wires k).stop k)

def restart (s : Reactors Ev) (k : ℕ) : Reactors Ev := (s.stop k).start k

/-- The end of `start`. -/
def finishStart (s : Reactors Ev) (k : ℕ) (rest : List ReactorsFrame) : Reactors Ev :=
  if (s.reactors k).state = .stopped then { s with stack := rest }
  else
    let w := (s.wires k).processPendingBindings k
    if w.reactor.state = .starting then
      { s.setWires k { w with reactor := { w.reactor with state := .running } } with stack := rest }
    else { s with fault := some .startState }

/-- The end of `reactionLoop`, and of `onChanged`. -/
def finishLoop (s : Reactors Ev) (k : ℕ) (rest : List ReactorsFrame) : Reactors Ev :=
  let w := (s.wires k).processPendingBindings k
  if w.reactor.state = .stopped then { s.setWires k w with stack := rest }
  else if w.reactor.state = .reacting then
    { s.setWires k { w with reactor := { w.reactor with state := .running } } with stack := rest }
  else { s with fault := some .onChangedState }

def onChanged (s : Reactors Ev) (k : ℕ) (binding : Binding Ev) : Reactors Ev :=
  let x := (s.reactors k).mergePending binding
  if x.state ≠ .running then s.setReactor k x
  else
    { s.setReactor k { x with state := .reacting, activeReactions := [], activeBindings := [] } with
      stack := .looking k none :: s.stack }

/-- A turn of the reaction loop of reactor `k`. -/
def look (count : ℕ → ℕ) (s : Reactors Ev) (k : ℕ) (reactionIdx : Option ℕ)
    (rest : List ReactorsFrame) : Reactors Ev :=
  match (s.reactors k).nextReaction (count k) reactionIdx with
  | none => s.finishLoop k rest
  | some i =>
      match ((s.reactors k).clearBit i).activateReaction i with
      | (false,x) => { s.setReactor k x with stack := .looking k (some i) :: rest }
      | (true,x) =>
          if x.state = .stopped then { s with fault := some .stoppedReaction }
          else { s.setReactor k x with stack := .reacting k i :: rest }

/-- The call of the next handler of a snapshot. -/
def call (s : Reactors Ev) (handlers : List EventHandler) (rest : List ReactorsFrame) :
    Reactors Ev :=
  match handlers with
  | [] => { s with stack := rest }
  | h :: handlers =>
      match h.kind with
      | .onEvent => { s with stack := .handling :: .calling handlers :: rest }
      | .onChanged =>
          match (s.reactors h.reactor).bindings h.binding with
          | none => { s with fault := some .deletedBinding }
          | some binding =>
              { s with stack := .calling handlers :: rest }.onChanged h.reactor binding

/-- The reactor whose function is running. -/
def current : List ReactorsFrame → Option ℕ
  | .starting k :: _ => some k
  | .reacting k _ :: _ => some k
  | _ => none

/-- A call that only the reactor function makes. -/
def byFunction (s : Reactors Ev) (f : ℕ → Reactor Ev → Option (Reactor Ev)) :
    Option (Reactors Ev) :=
  match current s.stack with
  | none => none
  | some k => (f k (s.reactors k)).map (s.setReactor k)

def returns (s : Reactors Ev) : Option (Reactors Ev) :=
  match s.stack with
  | .constructing k :: rest =>
      some { s.setReactor k { s.reactors k with state := .starting } with
        stack := .starting k :: rest }
  | .starting k :: rest => some (s.finishStart k rest)
  | .reacting k i :: rest =>
      if (s.reactors k).state = .stopped then some { s with stack := rest }
      else some { s with stack := .looking k (some i) :: rest }
  | .handling :: rest => some { s with stack := rest }
  | _ => none

def programStep (count : ℕ → ℕ) (s : Reactors Ev) : ReactorsAction Ev → Option (Reactors Ev)
  | .start k => some (s.start k)
  | .stop k => some (s.stop k)
  | .restart k => some (s.restart k)
  | .fire event => some { s with stack := .calling (s.handlers event) :: s.stack }
  | .addOnChangedBinding reactionIdx event =>
      s.byFunction fun k x =>
        if reactionIdx < count k then x.addOnChangedBinding reactionIdx event else none
  | .addOnEventBinding reactionIdx event =>
      s.byFunction fun k x =>
        if reactionIdx < count k then x.addOnEventBinding reactionIdx event else none
  | .enterReactiveStmt reactionFromIdx reactionToIdx =>
      s.byFunction fun k x =>
        if reactionToIdx ≤ count k then x.enterReactiveStmt reactionFromIdx reactionToIdx else none
  | .returns => s.returns
  | .look => none
  | .call => none

/-- `count` gives the number of reactions of each reactor. After a fault nothing is said. -/
def step (count : ℕ → ℕ) (s : Reactors Ev) (a : ReactorsAction Ev) : Option (Reactors Ev) :=
  if s.fault.isSome then none
  else
    match s.stack, a with
    | .looking k i :: rest, .look => some (s.look count k i rest)
    | .looking _ _ :: _, _ => none
    | .calling handlers :: rest, .call => some (s.call handlers rest)
    | .calling _ :: _, _ => none
    | _, a => s.programStep count a

/-- The calls of `start` and of `reactionLoop` of a reactor. -/
def ReactorsFrame.isOf (k : ℕ) : ReactorsFrame → Bool
  | .constructing j => j = k
  | .starting j => j = k
  | .reacting j _ => j = k
  | .looking j _ => j = k
  | _ => false

/-- No `start` and no `reactionLoop` of the reactor goes on. -/
def isOutside (s : Reactors Ev) (k : ℕ) : Bool :=
  s.stack.all fun frame => !ReactorsFrame.isOf k frame

/-- The `onchanged` handlers that the snapshots being called have still to call. -/
def listed (s : Reactors Ev) : List EventHandler :=
  (s.stack.flatMap fun
    | .calling handlers => handlers
    | _ => []).filter (·.kind = .onChanged)

/-- The binding goes at the end of the start or the loop: no reaction reads the event any more. -/
def goes (x : Reactor Ev) (b : ℕ) : Bool :=
  x.activeBindings.contains b &&
    match x.bindings b with
    | none => false
    | some binding =>
        binding.reactionMap.isEmpty &&
          x.pendingOnChangedBindings.all fun pending => pending.2 ≠ binding.event

/-- A stop of the reactor deletes no binding that is still to be notified. -/
def mayStop (s : Reactors Ev) (k : ℕ) : Bool :=
  (s.reactors k).state = .stopped || s.listed.all fun h => h.reactor ≠ k

/-- Nor does the end of its start or loop. -/
def mayFinish (s : Reactors Ev) (k : ℕ) : Bool :=
  s.listed.all fun h => h.reactor ≠ k || !goes (s.reactors k) h.binding

/-- The condition on a step: no reactor is started inside its own `start` or `reactionLoop`, and no
binding is deleted that a snapshot has still to notify. -/
def careful (count : ℕ → ℕ) (s : Reactors Ev) : ReactorsAction Ev → Bool
  | .start k => (s.reactors k).state ≠ .stopped || s.isOutside k
  | .stop k => s.mayStop k
  | .restart k => s.isOutside k && s.mayStop k
  | .returns =>
      match s.stack with
      | .starting k :: _ => (s.reactors k).state = .stopped || s.mayFinish k
      | _ => true
  | .look =>
      match s.stack with
      | .looking k i :: _ =>
          ((s.reactors k).nextReaction (count k) i).isSome || s.mayFinish k
      | _ => true
  | _ => true

end Reactors
end Jancy.Rtl
