import ConfGraph.Scope.Act

/-!
# Strands

Code may give way to other code that runs side by side with it.  A strand runs in a context, like
an act, but in turns: between two turns others change the state.  Strands that run side by side take
their turns one after the other, in the order in which they were given, in one round after the
other.  A strand that waits for something outside the program sits out all rounds until nobody else
has a turn to take.

When one of several strands fails, the failure goes to whoever waits for them all; the others go on
in the background.  Whoever goes on takes the place of the strand that failed: what stood before it
still takes its turns before, and what stood after it takes them after.

* `Course`: what remains of a piece of code, turn by turn.
* `Course.weave`: two pieces of code side by side.
* `Finish`: how a piece of code ended, and what it has left running.
* `Strand`: code that runs in a context and gives way.
* `Strand.all`: several strands side by side.
* `withScope`: runs a strand in a scope of its own.
-/

namespace ConfGraph

/-! ## 1. Courses -/

/-- Until when a piece of code gives way. -/
inductive Lull where
  /-- Until the next round. -/
  | brief
  /-- Until something happens outside the program, in so much time. -/
  | long (time : Nat)

mutual

/-- What remains of a piece of code: a result, or a further turn. -/
inductive Course (σ α : Type) where
  | done (a : α)
  | paused (lull : Lull) (turn : σ → Stop σ α)

/-- How a turn ended: with what remains, and in a state. -/
inductive Stop (σ α : Type) where
  | mk (rest : Course σ α) (state : σ)

end

variable {σ τ α β γ : Type}

mutual

/-- Takes all turns that remain, one right after the other. -/
def Course.finish : Course σ α → σ → α × σ
  | .done a, s => (a, s)
  | .paused _ turn, s => Stop.finish (turn s)

/-- Takes all turns that remain after a stop. -/
def Stop.finish : Stop σ α → α × σ
  | .mk rest s => rest.finish s

end

mutual

/-- Goes on with the result of a course, in the turn in which it is there. -/
def Course.andThen (f : α → σ → Stop σ β) : Course σ α → σ → Stop σ β
  | .done a, s => f a s
  | .paused lull turn, s => .mk (.paused lull fun s => Stop.andThen f (turn s)) s

/-- Goes on with the result of what remains after a stop. -/
def Stop.andThen (f : α → σ → Stop σ β) : Stop σ α → Stop σ β
  | .mk rest s => rest.andThen f s

end

namespace Course

mutual

/-- Changes the result of a course. -/
def map (f : α → β) : Course σ α → Course σ β
  | .done a => .done (f a)
  | .paused lull turn => .paused lull fun s => mapStop f (turn s)

/-- Changes the result of what remains after a stop. -/
def mapStop (f : α → β) : Stop σ α → Stop σ β
  | .mk rest s => .mk (map f rest) s

end

mutual

/-- A course on a part of the state. -/
def zoom (get : σ → τ) (set : σ → τ → σ) : Course τ α → Course σ α
  | .done a => .done a
  | .paused lull turn => .paused lull fun s => zoomStop get set s (turn (get s))

/-- What remains after a stop, on a part of the state. -/
def zoomStop (get : σ → τ) (set : σ → τ → σ) (s : σ) : Stop τ α → Stop σ α
  | .mk rest t => .mk (zoom get set rest) (set s t)

end

/-- So many turns in which nothing happens. -/
def idle : Nat → Course σ Unit
  | 0 => .done ()
  | turns + 1 => .paused .brief fun s => .mk (idle turns) s

/-- A wait for something outside the program. -/
def outside (time : Nat) : Course σ Unit := .paused (.long time) fun s => .mk (.done ()) s

/-- Takes the turn of a course in the present round, if it has one. -/
def now : Course σ α → σ → Stop σ α
  | .done a, s => .mk (.done a) s
  | .paused .brief turn, s => turn s
  | .paused (.long time) turn, s => .mk (.paused (.long time) turn) s

/-! ## 2. Side by side -/

/-- Who takes a turn in a round. -/
inductive Chance where
  | both
  /-- The first; the other one waits. -/
  | first (other : Lull)
  /-- The second; the other one waits. -/
  | second (other : Lull)

/-- Who takes a turn in the next round.  Of two that wait, it is the one whose time comes first. -/
def chance : Lull → Lull → Chance
  | .brief, .brief => .both
  | .brief, .long time => .first (.long time)
  | .long time, .brief => .second (.long time)
  | .long m, .long n => if m ≤ n then .first (.long (n - m)) else .second (.long (m - n))

section Weave

variable (first : Lull → β → σ → Stop σ γ) (turn : σ → Course σ β → Stop σ γ)

mutual

/-- A course beside one that gives way, which is given by what becomes of it when this one ends, and
by what its turn comes to before this one takes its own. -/
def beside (lull : Lull) : Course σ β → Course σ γ
  | .done b => .paused .brief (first lull b)
  | .paused lull' turn' =>
    match chance lull lull' with
    | .both => .paused .brief fun s => turn s (.paused lull' turn')
    | .first other => .paused lull fun s => turn s (.paused other turn')
    | .second other => .paused lull' fun s => besideStop other (turn' s)

/-- What remains after the turn of a course beside one that waits. -/
def besideStop (lull : Lull) : Stop σ β → Stop σ γ
  | .mk (.done b) s => first lull b s
  | .mk (.paused lull' turn') s => .mk (beside lull (.paused lull' turn')) s

end

variable (endFirst : α → Course σ β → σ → Stop σ γ) (endSecond : Course σ α → β → σ → Stop σ γ)

mutual

/-- **Two courses side by side**, taking turns in order, with what comes of the end of either.  When
the first ends, the second may still have its turn in the present round. -/
def weave : Course σ α → Course σ β → Course σ γ
  | .done a, q => .paused .brief (endFirst a q)
  | .paused lull turn, q =>
    beside (fun lull b s => endSecond (.paused lull turn) b s) (fun s q => weaveStop (turn s) q)
      lull q

/-- Goes on with the turn of the second of two courses after that of the first. -/
def weaveStop : Stop σ α → Course σ β → Stop σ γ
  | .mk (.done a) s, q => endFirst a q s
  | .mk (.paused lull turn) s, q =>
    match q.now s with
    | .mk (.done b) s => endSecond (.paused lull turn) b s
    | .mk (.paused lull' turn') s => .mk (weave (.paused lull turn) (.paused lull' turn')) s

end

end Weave

/-- Two courses side by side whose results do not matter. -/
def both (p q : Course σ Unit) : Course σ Unit :=
  match p, q with
  | .done (), q => q
  | p, .done () => p
  | p, q => weave (fun () q s => q.now s) (fun p () s => .mk p s) p q

end Course

/-! ## 3. Ends -/

/-- How a piece of code ended, and what it has left running in the background.  Whoever goes on takes
turns between the two parts of the background. -/
structure Finish (σ α : Type) where
  outcome : Except Fault α
  /-- What takes its turns before. -/
  ahead : Course σ Unit
  /-- What takes its turns after, and still has its turn in the round in which the end came. -/
  behind : Course σ Unit

namespace Finish

/-- An end that leaves nothing. -/
def clean (r : Except Fault α) : Finish σ α := ⟨r, .done (), .done ()⟩

/-- Changes the outcome. -/
def withOutcome (e : Finish σ α) (f : Except Fault α → Except Fault β) : Finish σ β :=
  ⟨f e.outcome, e.ahead, e.behind⟩

end Finish

namespace Course

/-- A course with another one in the background, which takes its turns before. -/
def preceded (p : Course σ (Finish σ α)) (q : Course σ Unit) : Course σ (Finish σ α) :=
  match p, q with
  | p, .done () => p
  | .done e, q => .done ⟨e.outcome, q.both e.ahead, e.behind⟩
  | p, q =>
    weave (fun () p s => p.now s) (fun q e s => .mk (.done ⟨e.outcome, q.both e.ahead, e.behind⟩) s)
      q p

/-- A course with another one in the background, which takes its turns after. -/
def followed (p : Course σ (Finish σ α)) (q : Course σ Unit) : Course σ (Finish σ α) :=
  match p, q with
  | p, .done () => p
  | .done e, q => .done ⟨e.outcome, e.ahead, e.behind.both q⟩
  | p, q =>
    weave (fun e q s => .mk (.done ⟨e.outcome, e.ahead, e.behind.both q⟩) s) (fun p () s => .mk p s)
      p q

/-- What is left running of a course that has ended, when nobody goes on from it. -/
def settled (e : Finish σ α) (s : σ) : Stop σ Unit :=
  match e.behind.now s with
  | .mk behind s => .mk (e.ahead.both behind) s

/-- A course whose result does not matter, with what it leaves running. -/
def dropped : Course σ (Finish σ α) → Course σ Unit
  | .done e => e.ahead.both e.behind
  | .paused lull turn => .paused lull fun s => Stop.andThen settled (turn s)

/-- Goes on in the place of a course that has ended in this round. -/
def resumed (e : Finish σ α) : Stop σ (Finish σ β) → Stop σ (Finish σ β)
  | .mk (.done e') s =>
    .mk (.done ⟨e'.outcome, e.ahead.both e'.ahead, e'.behind.both e.behind⟩) s
  | .mk rest s =>
    match e.behind.now s with
    | .mk behind s => .mk ((rest.followed behind).preceded e.ahead) s

/-- What comes of the end of the first of several courses side by side, when the others may still
have their turns. -/
def joinFirst (e : Finish σ α) (q : Course σ (Finish σ (List α))) (s : σ) :
    Stop σ (Finish σ (List α)) :=
  match e.outcome with
  | .error f => .mk (.done ⟨.error f, e.ahead, e.behind.both q.dropped⟩) s
  | .ok a =>
    match e.behind.now s with
    | .mk behind s =>
      match q.now s with
      | .mk q s =>
        .mk ((q.preceded (e.ahead.both behind)).map (·.withOutcome (Except.map (a :: ·)))) s

/-- What comes of the end of all but the first of several courses side by side. -/
def joinOthers (p : Course σ (Finish σ α)) (e : Finish σ (List α)) (s : σ) :
    Stop σ (Finish σ (List α)) :=
  match e.outcome with
  | .error f => .mk (.done ⟨.error f, p.dropped.both e.ahead, e.behind⟩) s
  | .ok as =>
    match e.behind.now s with
    | .mk behind s =>
      .mk ((p.followed (e.ahead.both behind)).map (·.withOutcome (Except.map (· :: as)))) s

mutual

/-- A course that ends, on a part of the state. -/
def zoomFinish (get : σ → τ) (set : σ → τ → σ) :
    Course τ (Finish τ α) → Course σ (Finish σ α)
  | .done e => .done ⟨e.outcome, e.ahead.zoom get set, e.behind.zoom get set⟩
  | .paused lull turn => .paused lull fun s => zoomFinishStop get set s (turn (get s))

/-- What remains after a stop, on a part of the state. -/
def zoomFinishStop (get : σ → τ) (set : σ → τ → σ) (s : σ) :
    Stop τ (Finish τ α) → Stop σ (Finish σ α)
  | .mk rest t => .mk (zoomFinish get set rest) (set s t)

end

end Course

/-! ## 4. Strands -/

/-- Code that runs in a context, gives way to other code between its turns, and may fail. -/
def Strand (σ α : Type) : Type := Context → σ → Stop σ (Finish σ α)

namespace Strand

/-- An act as a strand that never gives way. -/
def ofAct (a : Act σ α) : Strand σ α := fun c s =>
  let (r, s) := a.exec c s
  .mk (.done (.clean r)) s

/-- An act on the session as a strand. -/
def onSession [HasSession σ] (a : Act Session α) : Strand σ α := ofAct (ConfGraph.onSession a)

/-- Goes on with an outcome. -/
def ofExcept (r : Except Fault α) : Strand σ α := ofAct (Act.ofExcept r)

/-- Fails. -/
def fail (f : Fault) : Strand σ α := ofAct (Act.fail f)

/-- Runs a strand to its end.  What it has left running by then is given up. -/
def exec (a : Strand σ α) : Act σ α := fun c s =>
  let (e, s) := (a c s).finish
  (e.outcome, s)

/-- Goes on with how a strand ended.  What it has left running goes on as well. -/
def settle (a : Strand σ α) (f : Except Fault α → Strand σ β) : Strand σ β := fun c s =>
  (a c s).andThen fun e s => Course.resumed e (f e.outcome c s)

/-- Goes on with the result of a strand. -/
def bind (a : Strand σ α) (f : α → Strand σ β) : Strand σ β :=
  a.settle fun
    | .ok a => f a
    | .error e => fail e

instance : Monad (Strand σ) where
  pure a := ofAct (pure a)
  bind := bind

instance : MonadLift (Act σ) (Strand σ) := ⟨ofAct⟩

/-- Runs a strand and hands out how it ended. -/
def outcome (a : Strand σ α) : Strand σ (Except Fault α) := a.settle fun r => ofAct (pure r)

/-- Runs a strand in another context. -/
def inside (c : Context → Context) (a : Strand σ α) : Strand σ α := fun ctx s => a (c ctx) s

/-- Gives way for so many turns. -/
def pause (turns : Nat) : Strand σ Unit := fun _ s =>
  .mk ((Course.idle turns).map fun () => .clean (.ok ())) s

/-- Goes on with a strand in the turn after the one in which it ended, however it ended. -/
def after (a : Strand σ α) : Strand σ α :=
  a.settle fun r => do
    pause 1
    ofExcept r

/-- A strand that gives way at least once. -/
def yielding (a : Strand σ α) : Strand σ α := fun c s =>
  match a c s with
  | .mk (.done e) s => .mk (.paused .brief fun s => .mk (.done e) s) s
  | stop => stop

/-- Waits for something outside the program, such as a file, for so much time. -/
def wait (time : Nat) : Strand σ Unit := fun _ s =>
  .mk ((Course.outside time).map fun () => .clean (.ok ())) s

/-- A strand on a part of the state. -/
def zoom (get : σ → τ) (set : σ → τ → σ) (a : Strand τ α) : Strand σ α := fun c s =>
  Course.zoomFinishStop get set s (a c (get s))

/-- Strands side by side: all results in the turn of the last end, or the first failure. -/
def abreast : List (Strand σ α) → Strand σ (List α)
  | [] => pure []
  | a :: rest => fun c s =>
    match a c s with
    | .mk (.done e) s => Course.joinFirst e (.paused .brief (abreast rest c)) s
    | .mk p s =>
      match abreast rest c s with
      | .mk (.done e) s => Course.joinOthers p e s
      | .mk q s => .mk (Course.weave Course.joinFirst Course.joinOthers p q) s

/-- **Strands side by side**: all results, or the first failure.  Each end is noted in the turn
after it. -/
def all (strands : List (Strand σ α)) : Strand σ (List α) := abreast (strands.map after)

end Strand

/-! ## 5. Scopes -/

/-- **Runs a strand in a scope of its own** and gives what it made and what the scope holds in the
end.  The scope is closed however the strand ends. -/
def withScope [HasSession σ] (initial : Content) (body : Strand σ α) : Strand σ (α × Content) := do
  let id ← Strand.onSession (Session.openScope initial)
  let r ← Strand.outcome (Strand.after (Strand.inside (·.within id) body))
  let final ← Strand.outcome (Strand.onSession (Session.readScope id))
  Strand.onSession (Session.closeScope id)
  let a ← Strand.ofExcept r
  let content ← Strand.ofExcept final
  return (a, content)

end ConfGraph
