import SourceChunks.Proofs.Calculator.Steady
import SourceChunks.Proofs.InterruptedRun

/-!
# All costs or none

A calculator that can be asked for by name tells the cost of every text or of none: what it
lacks, if anything, is an encoding, and that shows at the first question.  `Calculator.costs`
are these costs, or what is in their way.

* `Calculator.run_of_costs`: with a calculator that has costs, a conversation takes the course
  that it takes with these costs fixed, so it fails only where it fails by itself.
* `Calculator.run_price_of_no_costs`: with one that has none, the first question is the end of it.
-/

namespace SourceChunks

open TokenCalculator

namespace Calculator

variable [EncodingSource] {calculator : Calculator}

/-- What texts cost, or why no cost can be told. -/
def costs : Calculator → Except Failure (String → Int)
  | characters => .ok fun text => text.length
  | fixed cost => .ok fun _ => cost
  | tokens _ (some encoding) => .ok fun text => encoding.count text
  | tokens name none => (Encoding.load name).map fun encoding text => encoding.count text

/-- A calculator that has costs tells them, and goes on having them. -/
theorem count_of_costs {cost : String → Int} (h : calculator.costs = .ok cost) (text : String) :
    (calculator.count text).1 = .ok (cost text) ∧ (calculator.count text).2.costs = .ok cost := by
  match calculator, h with
  | characters, h => exact ⟨congrArg (·.map (· text)) h, h⟩
  | fixed _, h => exact ⟨congrArg (·.map (· text)) h, h⟩
  | tokens _ (some _), h => exact ⟨congrArg (·.map (· text)) h, h⟩
  | tokens name none, h =>
    rw [costs] at h
    rw [count]
    cases hload : Encoding.load name with
    | ok encoding =>
      rw [hload] at h
      exact ⟨congrArg (·.map (· text)) h, h⟩
    | error failure =>
      rw [hload] at h
      cases h

/-- A calculator that has no costs says why, each time. -/
theorem count_of_no_costs {failure : Failure} (h : calculator.costs = .error failure)
    (text : String) : calculator.count text = (.error failure, calculator) := by
  match calculator, h with
  | tokens name none, h =>
    rw [costs] at h
    rw [count]
    cases hload : Encoding.load name with
    | ok encoding =>
      rw [hload] at h
      cases h
    | error reason =>
      rw [hload] at h
      rw [Except.error.inj h]

/-- Questions do not change the costs. -/
theorem costs_of_later {start : Calculator} (h : Later start calculator) :
    calculator.costs = start.costs := by
  induction h with
  | start => rfl
  | @asked calculator _ text ih =>
    rw [← ih]
    cases hcosts : calculator.costs with
    | ok cost => exact (count_of_costs hcosts text).2
    | error failure =>
      have hcount : TokenCalculator.count calculator text = (.error failure, calculator) :=
        count_of_no_costs hcosts text
      rw [hcount, hcosts]

end Calculator

/-! ## Conversations -/

/-- A consumer who has enough hears of no failure that the complete run does not end in. -/
theorem Producer.failure?_run {κ α : Type} [TokenCalculator κ] {producer : Producer α}
    {calculator : κ} (h : (producer.run none calculator).failure? = none) (limit : Option Nat) :
    (producer.run limit calculator).failure? = none := by
  match limit with
  | none => exact h
  | some limit =>
    obtain ⟨hstopped, hended⟩ := producer.ending_run_some limit calculator
    rw [Trace.failure?] at h ⊢
    rcases Nat.lt_or_ge (producer.run none calculator).chunks.length limit with hlt | hge
    · rwa [hended hlt]
    · rw [hstopped hge]

namespace Calculator

variable [EncodingSource] {calculator : Calculator}

/-- The calculator has the costs that are fixed in the other. -/
def Charges (calculator : Calculator) (fixed : CostFunction) : Prop :=
  calculator.costs = .ok fixed.cost

/-- **With a calculator that has costs** a conversation goes as with these costs fixed. -/
theorem run_of_costs {α : Type} {cost : String → Int} (h : calculator.costs = .ok cost)
    (producer : Producer α) (limit : Option Nat) :
    (producer.run limit calculator).events = (producer.run limit (CostFunction.mk cost)).events ∧
      (producer.run limit calculator).ending =
        (producer.run limit (CostFunction.mk cost)).ending := by
  have hstep : ∀ calculator fixed, Charges calculator fixed → ∀ text,
      (TokenCalculator.count calculator text).1 = (TokenCalculator.count fixed text).1 ∧
        Charges (TokenCalculator.count calculator text).2 (TokenCalculator.count fixed text).2 :=
    fun _ _ hcharges text => count_of_costs hcharges text
  have hstart : Charges calculator ⟨cost⟩ := h
  obtain ⟨hevents, hending, -⟩ := producer.run_alike hstep limit hstart
  exact ⟨hevents, hending⟩

/-- **With a calculator that has none** the first question is the end of a conversation. -/
theorem run_price_of_no_costs {α : Type} {failure : Failure}
    (h : calculator.costs = .error failure) (text : String) (rest : Int → Producer α)
    {limit : Option Nat} (hlimit : limit ≠ some 0) :
    (Producer.price text rest).run limit calculator = ⟨[], .failed failure, calculator⟩ := by
  have hcount : TokenCalculator.count calculator text = (.error failure, calculator) :=
    count_of_no_costs h text
  rw [Producer.run, if_neg hlimit, hcount]

end Calculator

end SourceChunks
