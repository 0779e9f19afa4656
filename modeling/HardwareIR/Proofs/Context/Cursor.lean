import HardwareIR.Proofs.Context.Walk

/-! # Walks from both ends

A walk over the list of a container can be asked for a node from either side, in any order.  Each
answer is what taking an element from that side of the plain list gives (`Side.pop`), so that a
whole word of calls (`Cursor.calls`) gets the same answers from the walk as from the list
(`Side.pops`).

The elements that were given from the front, those that are left, and those that were given from the
back in reverse are the list (`Side.given_append_left`).
-/

namespace HardwareIR

/-- A side from which elements are taken. -/
inductive Side where
  | front
  | back
deriving DecidableEq

namespace Side

variable {α : Type}

/-! ## Taking from plain lists -/

/-- The element at a side of a list, if there is one, and the list without it. -/
def pop : Side → List α → Option α × List α
  | front, xs => (xs.head?, xs.tail)
  | back, xs => (xs.getLast?, xs.dropLast)

/-- What the calls of a word are given, one after the other, and what is left of the list. -/
def pops : List Side → List α → List (Option α) × List α
  | [], xs => ([], xs)
  | side :: word, xs =>
    let (answer, rest) := side.pop xs
    let (answers, left) := pops word rest
    (answer :: answers, left)

/-- The elements that the calls for one side were given. -/
def given (side : Side) (word : List Side) (answers : List (Option α)) : List α :=
  (word.zip answers).filterMap fun call => if call.1 = side then call.2 else none

theorem pop_infix (side : Side) (xs : List α) : (side.pop xs).2 <:+: xs := by
  cases side with
  | front => exact (List.tail_suffix xs).isInfix
  | back => exact (List.dropLast_prefix xs).isInfix

theorem length_pop (side : Side) (xs : List α) : (side.pop xs).2.length = xs.length - 1 := by
  cases side with
  | front => exact List.length_tail
  | back => exact List.length_dropLast

theorem length_pops (word : List Side) (xs : List α) :
    (pops word xs).2.length = xs.length - word.length := by
  induction word generalizing xs with
  | nil => rfl
  | cons side word ih =>
    rw [pops, ih, length_pop, List.length_cons]
    omega

/-- Nothing is lost, doubled or moved. -/
theorem given_append_left (word : List Side) (xs : List α) :
    given front word (pops word xs).1 ++ (pops word xs).2 ++
      (given back word (pops word xs).1).reverse = xs := by
  induction word generalizing xs with
  | nil => simp [given, pops]
  | cons side word ih =>
    cases side with
    | front =>
      cases xs with
      | nil => simpa [given, pops, pop] using ih []
      | cons x xs => simpa [given, pops, pop] using ih xs
    | back =>
      cases xs using List.reverseRecOn with
      | nil => simpa [given, pops, pop] using ih []
      | append_singleton xs x =>
        have rest := ih xs
        simp only [given] at rest
        simp [given, pops, pop, ← List.append_assoc, rest]

/-- An empty list has nothing to give. -/
theorem pops_nil (word : List Side) :
    pops word ([] : List α) = (List.replicate word.length none, []) := by
  induction word with
  | nil => rfl
  | cons side word ih => cases side <;> simp [pops, pop, ih, List.replicate_succ]

end Side

/-! ## Walks -/

namespace Cursor

variable {l : Level}

/-- The next node from a side. -/
def call (ctx : Context) (c : Cursor l) : Side → Except Fault (Option (Handle l.node) × Cursor l)
  | .front => c.next ctx
  | .back => c.nextBack ctx

/-- The answers to the calls of a word, one after the other, and the walk that is left. -/
def calls (ctx : Context) : Cursor l → List Side →
    Except Fault (List (Option (Handle l.node)) × Cursor l)
  | c, [] => .ok ([], c)
  | c, side :: word => do
    let (answer, rest) ← c.call ctx side
    let (answers, left) ← rest.calls ctx word
    return (answer :: answers, left)

end Cursor

namespace Context

variable {ctx : Context} {l : Level} {c : Handle l.container} {all xs : List (Handle l.node)}

/-- A call takes a node from its side of what is still to come. -/
theorem Listed.call (listed : ctx.Listed l c all) (part : xs <:+: all) (side : Side) :
    (Cursor.over xs).call ctx side = .ok ((side.pop xs).1, .over (side.pop xs).2) := by
  cases side with
  | front => exact listed.next part
  | back => exact listed.nextBack part

/-- The answers to any word of calls are those that the plain list gives. -/
theorem Listed.calls (listed : ctx.Listed l c all) (part : xs <:+: all) (word : List Side) :
    (Cursor.over xs).calls ctx word = .ok ((Side.pops word xs).1, .over (Side.pops word xs).2) := by
  induction word generalizing xs with
  | nil => rfl
  | cons side word ih =>
    have rest := ih ((side.pop_infix xs).trans part)
    simp only [Cursor.calls, listed.call part, rest, Except.bind_ok, Except.pure_eq_ok, Side.pops]

end Context

end HardwareIR
