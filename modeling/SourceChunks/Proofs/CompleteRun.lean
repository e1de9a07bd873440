import SourceChunks.Producer

/-!
# Complete runs

With a fixed cost for every text, and a consumer that never has enough, a conversation has
one course.  `Yields` gives it as a derivation, so that the course of one conversation after
another is that of the first and then that of the second (`Yields.bind`), and `Yields.run_eq`
says that this is what `run` records.

A derivation exists only where the conversation ends with a value, so a theorem that gives
one also says that nothing fails.
-/

namespace SourceChunks

/-- What a conversation ended with, if it came to its end. -/
def Ending.value? {α : Type} : Ending α → Option α
  | .done value => some value
  | _ => none

namespace Producer

variable {α β : Type} {cost : String → Int}

/-- With the given costs, the conversation has these events and ends with the value. -/
inductive Yields (cost : String → Int) : Producer α → List Event → α → Prop
  | done (value : α) : Yields cost (.done value) [] value
  | emit {chunk : Chunk} {rest : Producer α} {events : List Event} {value : α}
      (later : Yields cost rest events value) :
      Yields cost (.emit chunk rest) (.chunk chunk :: events) value
  | request {language : String} {rest : Producer α} {events : List Event} {value : α}
      (later : Yields cost rest events value) :
      Yields cost (.request language rest) (.request language :: events) value
  | price {text : String} {rest : Int → Producer α} {events : List Event} {value : α}
      (later : Yields cost (rest (cost text)) events value) :
      Yields cost (.price text rest) (.cost text (cost text) :: events) value

namespace Yields

theorem pure (value : α) : Yields cost (Pure.pure value : Producer α) [] value :=
  .done value

/-- One conversation and then another. -/
theorem bind {producer : Producer α} {next : α → Producer β} {events later : List Event}
    {value : α} {last : β} (h : Yields cost producer events value)
    (h' : Yields cost (next value) later last) :
    Yields cost (producer >>= next) (events ++ later) last := by
  induction h with
  | done => exact h'
  | emit _ ih => exact .emit (ih h')
  | request _ ih => exact .request (ih h')
  | price _ ih => exact .price (ih h')

theorem ofExcept {result : Except Failure α} {value : α} (h : result = .ok value) :
    Yields cost (Producer.ofExcept result) [] value := by
  subst h
  exact .done value

theorem deliver (chunk : Chunk) :
    Yields cost (Producer.deliver chunk) [.chunk chunk] () :=
  .emit (.done ())

theorem deliver? (chunk? : Option Chunk) :
    Yields cost (Producer.deliver? chunk?) (chunk?.toList.map .chunk) () := by
  cases chunk? with
  | none => exact .done ()
  | some chunk => exact .deliver chunk

theorem priced (cost : String → Int) (text : String) :
    Yields cost (Producer.cost text) [.cost text (cost text)] (cost text) :=
  .price (.done _)

/-- The derivation is what a complete run records. -/
theorem run_eq {producer : Producer α} {events : List Event} {value : α}
    (h : Yields cost producer events value) :
    producer.run none (CostFunction.mk cost) = ⟨events, .done value, ⟨cost⟩⟩ := by
  induction h with
  | done value => rw [run, if_neg (by simp)]
  | emit _ ih => rw [run, if_neg (by simp), Option.map_none, ih]; rfl
  | request _ ih => rw [run, if_neg (by simp), ih]; rfl
  | price _ ih =>
    rw [run, if_neg (by simp)]
    simp only [TokenCalculator.count, ih]
    rfl

/-- A conversation has one course. -/
theorem unique {producer : Producer α} {events others : List Event} {value other : α}
    (h : Yields cost producer events value) (h' : Yields cost producer others other) :
    events = others ∧ value = other := by
  have heq := h.run_eq.symm.trans h'.run_eq
  simp only [Trace.mk.injEq, Ending.done.injEq, and_true] at heq
  exact heq

end Yields

end Producer

end SourceChunks
