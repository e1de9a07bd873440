import SourceChunks.Proofs.InterruptedRun

/-!
# Consumers who may refuse

A conversation that is held for a consumer who takes every chunk is the one that is held for
nobody in particular.  If the consumer refuses a chunk, it ends there, and it ends as if the
consumer had wanted that chunk and no more: nothing is asked or delivered behind it.

* `Producer.feed_cases`: a conversation for a consumer is one or the other.
* `Producer.feed_map`: what else a consumer keeps in mind makes no difference.
* `Producer.feed_alike`: calculators that give the same answers hold the same conversations, and
  the consumer cannot tell them apart.
-/

namespace SourceChunks

/-- The consumer takes the chunks one after the other. -/
inductive Takes {τ : Type} (take : τ → Chunk → Except Failure Unit × τ) : τ → List Chunk → τ → Prop
  | nil (consumer : τ) : Takes take consumer [] consumer
  | cons {consumer next last : τ} {chunk : Chunk} {chunks : List Chunk}
      (taken : take consumer chunk = (.ok (), next)) (later : Takes take next chunks last) :
      Takes take consumer (chunk :: chunks) last

namespace Producer

variable {κ τ α : Type} [TokenCalculator κ]

/-- The conversation ends with a chunk that the consumer refuses. -/
structure Refuses (take : τ → Chunk → Except Failure Unit × τ) (limit : Option Nat) (calculator : κ)
    (consumer : τ) (producer : Producer α) (fed : Trace κ α × τ) (chunk : Chunk)
    (failure : Failure) : Prop where
  taken : ∃ before, Takes take consumer fed.1.chunks before ∧
    take before chunk = (.error failure, fed.2)
  ending : fed.1.ending = .failed failure
  /-- It is as if the chunk had been the last that is wanted. -/
  run : producer.run (some (fed.1.chunks.length + 1)) calculator =
    ⟨fed.1.events ++ [.chunk chunk], .stopped, fed.1.calculator⟩
  wanted : ∀ count, limit = some count → fed.1.chunks.length < count

namespace Refuses

variable {take : τ → Chunk → Except Failure Unit × τ} {limit : Option Nat} {calculator : κ}
  {consumer : τ} {fed : Trace κ α × τ} {chunk : Chunk} {failure : Failure}

/-- The refusal of a later chunk, seen from a chunk that is taken. -/
theorem emit {first : Chunk} {next : τ} {rest : Producer α} (hlimit : limit ≠ some 0)
    (htake : take consumer first = (.ok (), next))
    (h : rest.Refuses take (limit.map (· - 1)) calculator next fed chunk failure) :
    (Producer.emit first rest).Refuses take limit calculator consumer
      (fed.1.after (.chunk first), fed.2) chunk failure where
  taken := by
    obtain ⟨before, htaken, hrefused⟩ := h.taken
    exact ⟨before, .cons htake htaken, hrefused⟩
  ending := h.ending
  run := by
    show (Producer.emit first rest).run (some (fed.1.chunks.length + 1 + 1)) calculator = _
    rw [Producer.run, if_neg (by simp), Option.map_some, Nat.add_sub_cancel, h.run]
    rfl
  wanted := by
    rintro count rfl
    have hcount : count ≠ 0 := fun hzero => hlimit (congrArg some hzero)
    have hlater : fed.1.chunks.length < count - 1 := h.wanted (count - 1) rfl
    show fed.1.chunks.length + 1 < count
    omega

theorem request {language : String} {rest : Producer α}
    (h : rest.Refuses take limit calculator consumer fed chunk failure) :
    (Producer.request language rest).Refuses take limit calculator consumer
      (fed.1.after (.request language), fed.2) chunk failure where
  taken := h.taken
  ending := h.ending
  run := by
    show (Producer.request language rest).run (some (fed.1.chunks.length + 1)) calculator = _
    rw [Producer.run, if_neg (by simp), h.run]
    rfl
  wanted := h.wanted

theorem price {text : String} {tokens : Int} {next : κ} {rest : Int → Producer α}
    (hcount : TokenCalculator.count calculator text = (.ok tokens, next))
    (h : (rest tokens).Refuses take limit next consumer fed chunk failure) :
    (Producer.price text rest).Refuses take limit calculator consumer
      (fed.1.after (.cost text tokens), fed.2) chunk failure where
  taken := h.taken
  ending := h.ending
  run := by
    show (Producer.price text rest).run (some (fed.1.chunks.length + 1)) calculator = _
    rw [Producer.run, if_neg (by simp), hcount]
    show ((rest tokens).run (some (fed.1.chunks.length + 1)) next).after _ = _
    rw [h.run]
    rfl
  wanted := h.wanted

end Refuses

/-- A consumer who wants nothing is offered nothing. -/
@[simp] theorem feed_zero (take : τ → Chunk → Except Failure Unit × τ) (calculator : κ)
    (consumer : τ) (producer : Producer α) :
    producer.feed take (some 0) calculator consumer = (⟨[], .stopped, calculator⟩, consumer) := by
  unfold feed
  rfl

/-- **How a conversation goes for a consumer.**  Either all that is delivered is taken, and it goes
as without the consumer, or a chunk is refused. -/
theorem feed_cases (take : τ → Chunk → Except Failure Unit × τ) (limit : Option Nat)
    (calculator : κ) (consumer : τ) (producer : Producer α) :
    let fed := producer.feed take limit calculator consumer
    (fed.1 = producer.run limit calculator ∧ Takes take consumer fed.1.chunks fed.2) ∨
      ∃ chunk failure, producer.Refuses take limit calculator consumer fed chunk failure := by
  induction producer generalizing limit calculator consumer with
  | done value =>
    rw [feed, run]
    split <;> exact .inl ⟨rfl, .nil consumer⟩
  | fail failure =>
    rw [feed, run]
    split <;> exact .inl ⟨rfl, .nil consumer⟩
  | emit chunk rest ih =>
    rw [feed, run]
    split
    · exact .inl ⟨rfl, .nil consumer⟩
    · next hlimit =>
      cases htake : take consumer chunk with
      | mk answer next =>
        cases answer with
        | ok =>
          obtain ⟨hrun, htaken⟩ | ⟨later, failure, hrefuses⟩ :=
            ih (limit.map (· - 1)) calculator next
          · exact .inl ⟨congrArg (Trace.after (.chunk chunk)) hrun, .cons htake htaken⟩
          · exact .inr ⟨later, failure, hrefuses.emit hlimit htake⟩
        | error failure =>
          refine .inr ⟨chunk, failure, ⟨consumer, .nil consumer, htake⟩, rfl, ?_, ?_⟩
          · show (Producer.emit chunk rest).run (some 1) calculator = _
            rw [run, if_neg (by simp), Option.map_some, Nat.sub_self, run_zero]
            rfl
          · rintro count rfl
            exact Nat.pos_of_ne_zero fun hzero => hlimit (congrArg some hzero)
  | request language rest ih =>
    rw [feed, run]
    split
    · exact .inl ⟨rfl, .nil consumer⟩
    · obtain ⟨hrun, htaken⟩ | ⟨later, failure, hrefuses⟩ := ih limit calculator consumer
      · exact .inl ⟨congrArg (Trace.after (.request language)) hrun, htaken⟩
      · exact .inr ⟨later, failure, hrefuses.request⟩
  | price text rest ih =>
    rw [feed, run]
    split
    · exact .inl ⟨rfl, .nil consumer⟩
    · cases hcount : TokenCalculator.count calculator text with
      | mk answer next =>
        cases answer with
        | ok tokens =>
          obtain ⟨hrun, htaken⟩ | ⟨later, failure, hrefuses⟩ := ih tokens limit next consumer
          · exact .inl ⟨congrArg (Trace.after (.cost text tokens)) hrun, htaken⟩
          · exact .inr ⟨later, failure, hrefuses.price hcount⟩
        | error failure => exact .inl ⟨rfl, .nil consumer⟩

/-- A consumer who takes every chunk makes no difference. -/
theorem run_eq_feed (limit : Option Nat) (calculator : κ) (producer : Producer α) :
    producer.run limit calculator =
      (producer.feed (fun (_ : Unit) _ => (.ok (), ())) limit calculator ()).1 := by
  obtain ⟨hrun, -⟩ | ⟨chunk, failure, hrefuses⟩ :=
    producer.feed_cases (fun (_ : Unit) _ => (.ok (), ())) limit calculator ()
  · exact hrun.symm
  · obtain ⟨before, -, hrefused⟩ := hrefuses.taken
    cases hrefused

/-- A consumer who knows more than another, but takes and refuses the same, makes no difference. -/
theorem feed_map {τ' : Type} (view : τ' → τ) {take : τ → Chunk → Except Failure Unit × τ}
    {take' : τ' → Chunk → Except Failure Unit × τ'}
    (htake : ∀ consumer chunk,
      take (view consumer) chunk = ((take' consumer chunk).1, view (take' consumer chunk).2))
    (producer : Producer α) (limit : Option Nat) (calculator : κ) (consumer : τ') :
    let fed := producer.feed take' limit calculator consumer
    producer.feed take limit calculator (view consumer) = (fed.1, view fed.2) := by
  induction producer generalizing limit calculator consumer with
  | done value =>
    rw [feed, feed]
    split <;> rfl
  | fail failure =>
    rw [feed, feed]
    split <;> rfl
  | emit chunk rest ih =>
    rw [feed, feed]
    split
    · rfl
    · rw [htake]
      cases take' consumer chunk with
      | mk answer next =>
        cases answer with
        | ok =>
          dsimp only
          rw [ih]
        | error failure => rfl
  | request language rest ih =>
    rw [feed, feed]
    split
    · rfl
    · rw [ih]
  | price text rest ih =>
    rw [feed, feed]
    split
    · rfl
    · cases TokenCalculator.count calculator text with
      | mk answer next =>
        cases answer with
        | ok tokens =>
          dsimp only
          rw [ih]
        | error failure => rfl

/-- Calculators that give the same answers, and go on doing so, hold the same conversations, and
leave the consumer in the same state. -/
theorem feed_alike {κ' : Type} [TokenCalculator κ'] {alike : κ → κ' → Prop}
    (hstep : ∀ calculator other, alike calculator other → ∀ text,
      (TokenCalculator.count calculator text).1 = (TokenCalculator.count other text).1 ∧
        alike (TokenCalculator.count calculator text).2 (TokenCalculator.count other text).2)
    (take : τ → Chunk → Except Failure Unit × τ) (producer : Producer α) (limit : Option Nat)
    {calculator : κ} {other : κ'} (h : alike calculator other) (consumer : τ) :
    let fed := producer.feed take limit calculator consumer
    let fed' := producer.feed take limit other consumer
    fed.1.events = fed'.1.events ∧ fed.1.ending = fed'.1.ending ∧ fed.2 = fed'.2 ∧
      alike fed.1.calculator fed'.1.calculator := by
  induction producer generalizing limit calculator other consumer with
  | done value =>
    rw [feed, feed]
    split <;> exact ⟨rfl, rfl, rfl, h⟩
  | fail failure =>
    rw [feed, feed]
    split <;> exact ⟨rfl, rfl, rfl, h⟩
  | emit chunk rest ih =>
    rw [feed, feed]
    split
    · exact ⟨rfl, rfl, rfl, h⟩
    · cases take consumer chunk with
      | mk answer next =>
        cases answer with
        | ok =>
          obtain ⟨hevents, hending, hconsumer, hlast⟩ := ih (limit.map (· - 1)) h next
          exact ⟨congrArg (_ :: ·) hevents, hending, hconsumer, hlast⟩
        | error failure => exact ⟨rfl, rfl, rfl, h⟩
  | request language rest ih =>
    rw [feed, feed]
    split
    · exact ⟨rfl, rfl, rfl, h⟩
    · obtain ⟨hevents, hending, hconsumer, hlast⟩ := ih limit h consumer
      exact ⟨congrArg (_ :: ·) hevents, hending, hconsumer, hlast⟩
  | price text rest ih =>
    rw [feed, feed]
    split
    · exact ⟨rfl, rfl, rfl, h⟩
    · obtain ⟨hanswer, hnext⟩ := hstep calculator other h text
      generalize TokenCalculator.count calculator text = reply at hanswer hnext ⊢
      generalize TokenCalculator.count other text = reply' at hanswer hnext ⊢
      obtain ⟨answer, next⟩ := reply
      obtain ⟨answer', next'⟩ := reply'
      obtain rfl : answer = answer' := hanswer
      cases answer with
      | ok tokens =>
        obtain ⟨hevents, hending, hconsumer, hlast⟩ := ih tokens limit hnext consumer
        exact ⟨congrArg (_ :: ·) hevents, hending, hconsumer, hlast⟩
      | error failure => exact ⟨rfl, rfl, rfl, hnext⟩

end Producer

end SourceChunks
