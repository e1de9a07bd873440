import SourceChunks.Chunk
import SourceChunks.Failure

/-!
# Producers

Chunking a file is a conversation.  The producer hands chunks to whoever wants them, asks
what texts cost, asks for a grammar, and ends with a value or a failure; nothing happens
that nobody waits for.  A `Producer` is such a conversation before it is held: what it does
after a question is given for every answer.

Two producers are equal when they say the same things in the same order, whatever they are
answered.  So an equation between producers holds for every calculator, also for one that
changes its mind or gives up, and for every consumer that stops early.

`TokenCalculator` is what answers, `run` holds the conversation, and a `Trace` is its
record.  `feed` holds it for a consumer who may refuse a chunk.
-/

namespace SourceChunks

/-- A conversation that delivers chunks and ends with a value. -/
inductive Producer (α : Type) where
  /-- It has ended. -/
  | done (value : α)
  /-- It cannot go on. -/
  | fail (failure : Failure)
  /-- It delivers a chunk. -/
  | emit (chunk : Chunk) (rest : Producer α)
  /-- It asks for the grammar of a language. -/
  | request (language : String) (rest : Producer α)
  /-- It asks what a text costs. -/
  | price (text : String) (rest : Int → Producer α)

namespace Producer

variable {α β : Type}

/-- One conversation and then another that depends on how the first ended. -/
def bind : Producer α → (α → Producer β) → Producer β
  | done value, next => next value
  | fail failure, _ => fail failure
  | emit chunk rest, next => emit chunk (rest.bind next)
  | request language rest, next => request language (rest.bind next)
  | price text rest, next => price text fun tokens => (rest tokens).bind next

instance : Monad Producer where
  pure := done
  bind := bind

theorem pure_eq (value : α) : (pure value : Producer α) = done value := rfl

@[simp] theorem done_bind (value : α) (next : α → Producer β) :
    done value >>= next = next value := rfl

@[simp] theorem fail_bind (failure : Failure) (next : α → Producer β) :
    fail failure >>= next = fail failure := rfl

@[simp] theorem emit_bind (chunk : Chunk) (rest : Producer α) (next : α → Producer β) :
    emit chunk rest >>= next = emit chunk (rest >>= next) := rfl

@[simp] theorem request_bind (language : String) (rest : Producer α) (next : α → Producer β) :
    request language rest >>= next = request language (rest >>= next) := rfl

@[simp] theorem price_bind (text : String) (rest : Int → Producer α) (next : α → Producer β) :
    price text rest >>= next = price text fun tokens => rest tokens >>= next := rfl

@[simp] theorem bind_done (producer : Producer α) : producer >>= done = producer := by
  induction producer with
  | done => rfl
  | fail => rfl
  | emit chunk rest ih => rw [emit_bind, ih]
  | request language rest ih => rw [request_bind, ih]
  | price text rest ih => rw [price_bind]; congr; funext tokens; exact ih tokens

theorem bind_bind {γ : Type} (producer : Producer α) (next : α → Producer β)
    (last : β → Producer γ) :
    producer >>= next >>= last = producer >>= fun value => next value >>= last := by
  induction producer with
  | done => rfl
  | fail => rfl
  | emit chunk rest ih => simp only [emit_bind, ih]
  | request language rest ih => simp only [request_bind, ih]
  | price text rest ih => simp only [price_bind, ih]

instance : LawfulMonad Producer :=
  LawfulMonad.mk' Producer bind_done (fun _ _ => rfl) bind_bind

/-- Delivers a chunk. -/
def deliver (chunk : Chunk) : Producer Unit :=
  emit chunk (done ())

/-- Delivers a chunk if there is one. -/
def deliver? : Option Chunk → Producer Unit
  | some chunk => deliver chunk
  | none => done ()

/-- What a text costs. -/
def cost (text : String) : Producer Int :=
  price text done

/-- Goes on with a value or fails. -/
def ofExcept : Except Failure α → Producer α
  | .ok value => done value
  | .error failure => fail failure

end Producer

/-! ## Holding the conversation -/

/-- What can tell the cost of a text.  It may remember what it was asked, and give up. -/
class TokenCalculator (κ : Type) where
  count : κ → String → Except Failure Int × κ

/-- A fixed cost for every text. -/
structure CostFunction where
  cost : String → Int

instance : TokenCalculator CostFunction where
  count calculator text := (.ok (calculator.cost text), calculator)

/-- Something that happened in a conversation. -/
inductive Event where
  /-- A chunk was delivered. -/
  | chunk (chunk : Chunk)
  /-- A text was priced. -/
  | cost (text : String) (tokens : Int)
  /-- A grammar was asked for. -/
  | request (language : String)
  deriving DecidableEq, Repr

namespace Event

/-- The chunk that was delivered. -/
def chunk? : Event → Option Chunk
  | .chunk delivered => some delivered
  | _ => none

/-- The question for a cost that was answered, with its answer. -/
def cost? : Event → Option (String × Int)
  | .cost text tokens => some (text, tokens)
  | _ => none

/-- The grammar that was asked for. -/
def request? : Event → Option String
  | .request language => some language
  | _ => none

end Event

/-- How a conversation came to its end. -/
inductive Ending (α : Type) where
  | done (value : α)
  | failed (failure : Failure)
  /-- The consumer had enough. -/
  | stopped
  deriving DecidableEq

/-- The record of a conversation, and the calculator as it was left. -/
structure Trace (κ α : Type) where
  events : List Event
  ending : Ending α
  calculator : κ

namespace Trace

variable {κ α : Type}

/-- The same record with an event in front. -/
def after (event : Event) (trace : Trace κ α) : Trace κ α :=
  { trace with events := event :: trace.events }

/-- The chunks that were delivered, in order. -/
def chunks (trace : Trace κ α) : List Chunk :=
  trace.events.filterMap Event.chunk?

/-- The questions for costs that were answered, in order. -/
def questions (trace : Trace κ α) : List (String × Int) :=
  trace.events.filterMap Event.cost?

/-- The grammars that were asked for, in order. -/
def requests (trace : Trace κ α) : List String :=
  trace.events.filterMap Event.request?

/-- The failure in which the conversation ended. -/
def failure? (trace : Trace κ α) : Option Failure :=
  match trace.ending with
  | .failed failure => some failure
  | _ => none

end Trace

/-- Holds a conversation with a calculator, and stops as soon as `limit` chunks have been
delivered. -/
def Producer.run {κ α : Type} [TokenCalculator κ] (limit : Option Nat) (calculator : κ)
    (producer : Producer α) : Trace κ α :=
  if limit = some 0 then ⟨[], .stopped, calculator⟩
  else
    match producer with
    | .done value => ⟨[], .done value, calculator⟩
    | .fail failure => ⟨[], .failed failure, calculator⟩
    | .emit chunk rest => (rest.run (limit.map (· - 1)) calculator).after (.chunk chunk)
    | .request language rest => (rest.run limit calculator).after (.request language)
    | .price text rest =>
      match TokenCalculator.count calculator text with
      | (.ok tokens, calculator) => ((rest tokens).run limit calculator).after (.cost text tokens)
      | (.error failure, calculator) => ⟨[], .failed failure, calculator⟩

/-- Holds a conversation with a calculator and hands each chunk to a consumer, who takes it or
refuses it.  It stops as soon as `limit` chunks have been taken, and a refusal is the end of it;
the producer hears of neither. -/
def Producer.feed {κ τ α : Type} [TokenCalculator κ] (take : τ → Chunk → Except Failure Unit × τ)
    (limit : Option Nat) (calculator : κ) (consumer : τ) (producer : Producer α) :
    Trace κ α × τ :=
  if limit = some 0 then (⟨[], .stopped, calculator⟩, consumer)
  else
    match producer with
    | .done value => (⟨[], .done value, calculator⟩, consumer)
    | .fail failure => (⟨[], .failed failure, calculator⟩, consumer)
    | .emit chunk rest =>
      match take consumer chunk with
      | (.ok (), consumer) =>
        let (trace, consumer) := rest.feed take (limit.map (· - 1)) calculator consumer
        (trace.after (.chunk chunk), consumer)
      | (.error failure, consumer) => (⟨[], .failed failure, calculator⟩, consumer)
    | .request language rest =>
      let (trace, consumer) := rest.feed take limit calculator consumer
      (trace.after (.request language), consumer)
    | .price text rest =>
      match TokenCalculator.count calculator text with
      | (.ok tokens, calculator) =>
        let (trace, consumer) := (rest tokens).feed take limit calculator consumer
        (trace.after (.cost text tokens), consumer)
      | (.error failure, calculator) => (⟨[], .failed failure, calculator⟩, consumer)

end SourceChunks
