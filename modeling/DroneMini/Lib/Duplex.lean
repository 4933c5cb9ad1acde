import DroneMini.Lib.Run
import Mathlib.Tactic.SplitIfs

/-!
# Two parties and two queues

A party is a function from its states to what it does next (`Act`). Two parties joined by a queue of messages
in each direction make a transition system (`Duplex.step`), whose runs are the interleavings of their moves. A
receive takes the oldest message, or reports the end of the stream when there is none and the peer is gone; a
send fails when the peer is gone.

What one party does in a run is a run of that party alone, on what it meets (`run_left`, `run_right`), so a
fact about a party whatever it meets is a fact about it in every run.
-/

namespace DroneMini

/-- What a party does next: it sends a message, it receives, it is busy for ever, or it has left. -/
inductive Act (M S : Type*) where
  | send (msg : M) (next : Bool → S)
  | recv (next : Option M → S)
  | busy
  | gone

/-- What a party meets: whether its message goes out, or what it receives; nothing is the end of the
stream. -/
inductive Met (M : Type*) where
  | sent (ok : Bool)
  | got (msg : Option M)

namespace Act

variable {M S : Type*}

def isGone : Act M S → Bool
  | gone => true
  | _ => false

/-- The state of a party after what it meets, when its action can meet this. -/
def after : Act M S → Met M → Option S
  | send _ next, .sent ok => some (next ok)
  | recv next, .got msg => some (next msg)
  | _, _ => none

/-- A move, if the party can make one: its next state, what it meets, what is left of its inbox, and what it
sends. -/
def move (a : Act M S) (inbox : List M) (peerGone : Bool) : Option (S × Met M × List M × List M) :=
  match a, inbox with
  | send msg next, inbox => some (next !peerGone, .sent !peerGone, inbox, if peerGone then [] else [msg])
  | recv next, msg :: rest => some (next (some msg), .got (some msg), rest, [])
  | recv next, [] => if peerGone then some (next none, .got none, [], []) else none
  | _, _ => none

/-- A move that the system makes is one that the party's own action allows on what it meets. -/
theorem after_of_move {a : Act M S} {inbox rest out : List M} {peerGone : Bool} {s : S} {met : Met M}
    (h : a.move inbox peerGone = some (s, met, rest, out)) : a.after met = some s := by
  unfold move at h
  split at h
  · cases h
    rfl
  · cases h
    rfl
  · split_ifs at h
    cases h
    rfl
  · cases h

end Act

/-- The two parties and the messages on their way to each. -/
structure Duplex (S T M : Type*) where
  left : S
  right : T
  toLeft : List M
  toRight : List M

namespace Duplex

/-- The two sides of the connection, either of which may move next. -/
inductive Side where
  | left
  | right
  deriving DecidableEq, Repr

variable {S T M : Type*} (f : S → Act M S) (g : T → Act M T)

/-- A move of the party on one side, if it is possible: the system after it and what the party met. -/
def next (x : Duplex S T M) : Side → Option (Duplex S T M × Met M)
  | .left =>
    ((f x.left).move x.toLeft (g x.right).isGone).map fun (s, met, rest, out) =>
      (⟨s, x.right, rest, x.toRight ++ out⟩, met)
  | .right =>
    ((g x.right).move x.toRight (f x.left).isGone).map fun (t, met, rest, out) =>
      (⟨x.left, t, x.toLeft ++ out, rest⟩, met)

/-- The transition system of two parties: a step is a possible move of one of them. -/
def step (x : Duplex S T M) (side : Side) (x' : Duplex S T M) (met : Met M) : Prop :=
  next f g x side = some (x', met)

/-- A party alone, without its peer: it may meet anything that its action allows, in any state. -/
def alone (s : S) (met : Met M) (s' : S) (_ : Unit) : Prop := (f s).after met = some s'

variable {f g} {x y : Duplex S T M} {met : Met M}

/-- A move of the left party is one of that party alone, and leaves the other as it is. -/
theorem left_of_next (h : next f g x .left = some (y, met)) :
    (f x.left).after met = some y.left ∧ y.right = x.right := by
  obtain ⟨⟨s, met', rest, out⟩, hmove, h⟩ := Option.map_eq_some_iff.mp h
  cases h
  exact ⟨Act.after_of_move hmove, rfl⟩

/-- A move of the right party is one of that party alone, and leaves the other as it is. -/
theorem right_of_next (h : next f g x .right = some (y, met)) :
    (g x.right).after met = some y.right ∧ y.left = x.left := by
  obtain ⟨⟨t, met', rest, out⟩, hmove, h⟩ := Option.map_eq_some_iff.mp h
  cases h
  exact ⟨Act.after_of_move hmove, rfl⟩

/-! ## What a move makes of the system -/

section Moves
variable {msg : M} {rest : List M} {send : Bool → S} {recv : Option M → S} {send' : Bool → T}
  {recv' : Option M → T}

theorem left_send (hs : step f g x .left y met) (h : f x.left = .send msg send)
    (hpeer : (g x.right).isGone = false) :
    y = ⟨send true, x.right, x.toLeft, x.toRight ++ [msg]⟩ := by
  rw [step, next, h, hpeer] at hs
  cases hs
  rfl

theorem left_recv (hs : step f g x .left y met) (h : f x.left = .recv recv)
    (hbox : x.toLeft = msg :: rest) : y = ⟨recv (some msg), x.right, rest, x.toRight⟩ := by
  rw [step, next, h, hbox] at hs
  cases hs
  rw [List.append_nil]

theorem right_send (hs : step f g x .right y met) (h : g x.right = .send msg send')
    (hpeer : (f x.left).isGone = false) :
    y = ⟨x.left, send' true, x.toLeft ++ [msg], x.toRight⟩ := by
  rw [step, next, h, hpeer] at hs
  cases hs
  rfl

theorem right_recv (hs : step f g x .right y met) (h : g x.right = .recv recv')
    (hbox : x.toRight = msg :: rest) : y = ⟨x.left, recv' (some msg), x.toLeft, rest⟩ := by
  rw [step, next, h, hbox] at hs
  cases hs
  rw [List.append_nil]

/-- A send of the right party fails when the left one is gone, and the message is lost. -/
theorem right_refused (hs : step f g x .right y met) (h : g x.right = .send msg send')
    (hpeer : (f x.left).isGone = true) : y = ⟨x.left, send' false, x.toLeft, x.toRight⟩ := by
  rw [step, next, h, hpeer] at hs
  cases hs
  rw [if_pos rfl, List.append_nil]
  rfl

/-- A receive of the right party with an empty queue happens only when the left one is gone, and shows the end
of the stream. -/
theorem right_end (hs : step f g x .right y met) (h : g x.right = .recv recv') (hbox : x.toRight = []) :
    y = ⟨x.left, recv' none, x.toLeft, []⟩ := by
  rw [step, next, h, hbox] at hs
  cases hgone : (f x.left).isGone with
  | false =>
    rw [hgone] at hs
    cases hs
  | true =>
    rw [hgone] at hs
    cases hs
    rw [List.append_nil]

end Moves

/-! ## One party of a run -/

/-- A move of one of the two parties, as an event of a run of the system. -/
abbrev Moved (S T M : Type*) := Event (Duplex S T M) Side (Met M)

/-- The move as the left party sees it alone, if it is the left party's. -/
def leftOf (e : Moved S T M) : Option (Event S (Met M) Unit) :=
  match e.inp with
  | .left => some ⟨e.pre.left, e.out, e.post.left, ()⟩
  | .right => none

/-- The move as the right party sees it alone, if it is the right party's. -/
def rightOf (e : Moved S T M) : Option (Event T (Met M) Unit) :=
  match e.inp with
  | .left => none
  | .right => some ⟨e.pre.right, e.out, e.post.right, ()⟩

/-- **What the left party does in a run** is a run of that party alone. -/
theorem run_left {es : List (Moved S T M)} (h : Run (step f g) x es y) :
    Run (alone f) x.left (es.filterMap leftOf) y.left := by
  refine h.filterMap (fun x => x.left) leftOf (fun e hs e' he' => ?_) fun e hs hnone => ?_
  · obtain ⟨pre, side, post, met⟩ := e
    cases side with
    | left =>
      cases he'
      exact ⟨rfl, rfl, (left_of_next hs).1⟩
    | right => cases he'
  · obtain ⟨pre, side, post, met⟩ := e
    cases side with
    | left => cases hnone
    | right => exact (right_of_next hs).2

/-- **What the right party does in a run** is a run of that party alone. -/
theorem run_right {es : List (Moved S T M)} (h : Run (step f g) x es y) :
    Run (alone g) x.right (es.filterMap rightOf) y.right := by
  refine h.filterMap (fun x => x.right) rightOf (fun e hs e' he' => ?_) fun e hs hnone => ?_
  · obtain ⟨pre, side, post, met⟩ := e
    cases side with
    | left => cases he'
    | right =>
      cases he'
      exact ⟨rfl, rfl, (right_of_next hs).1⟩
  · obtain ⟨pre, side, post, met⟩ := e
    cases side with
    | left => exact (left_of_next hs).2
    | right => cases hnone

end Duplex

end DroneMini
