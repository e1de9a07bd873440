import Std.Data.TreeMap.Lemmas
import SourceChunks.Calculator.Registry
import SourceChunks.Proofs.Feeding

/-!
# Calculators that stay the same

A calculator may remember what it was asked.  It is steady (`TokenCalculator.Steady`) if that
makes no difference to its answers, however often and in whatever order it was asked before.

* `steady_of_isFresh`: a calculator with nothing loaded is steady.  It keeps an encoding once
  it has it, which is the one that would be loaded again; and where there is none to be had,
  that shows each time anew.
* `isFresh_of_create`: the calculators that can be asked for by name from the start have
  nothing loaded.
* `Producer.feed_later`: a conversation takes the same course with a steady calculator whatever
  was asked of it before, also for a consumer who may refuse a chunk.
-/

namespace SourceChunks

namespace TokenCalculator

variable {κ : Type} [TokenCalculator κ]

/-- The second calculator is the first after questions, answered or not. -/
inductive Later (start : κ) : κ → Prop
  | start : Later start start
  | asked {calculator : κ} (h : Later start calculator) (text : String) :
      Later start (count calculator text).2

/-- What was asked before makes no difference to an answer. -/
def Steady (start : κ) : Prop :=
  ∀ calculator, Later start calculator → ∀ text, (count calculator text).1 = (count start text).1

/-- A calculator is steady if it stays in a set of states that answer alike. -/
theorem steady_of_invariant {start : κ} (holds : κ → Prop) (hstart : holds start)
    (hstep : ∀ calculator, holds calculator → ∀ text,
      (count calculator text).1 = (count start text).1 ∧ holds (count calculator text).2) :
    Steady start := by
  have hlater : ∀ calculator, Later start calculator → holds calculator := by
    intro calculator h
    induction h with
    | start => exact hstart
    | asked _ text ih => exact (hstep _ ih text).2
  exact fun calculator h text => (hstep calculator (hlater calculator h) text).1

end TokenCalculator

open TokenCalculator

/-! ## Conversations with a steady calculator -/

/-- Calculators that give the same answers, and go on doing so, hold the same conversations. -/
theorem Producer.run_alike {κ κ' α : Type} [TokenCalculator κ] [TokenCalculator κ']
    {alike : κ → κ' → Prop}
    (hstep : ∀ calculator other, alike calculator other → ∀ text,
      (count calculator text).1 = (count other text).1 ∧
        alike (count calculator text).2 (count other text).2)
    (producer : Producer α) (limit : Option Nat) {calculator : κ} {other : κ'}
    (h : alike calculator other) :
    (producer.run limit calculator).events = (producer.run limit other).events ∧
      (producer.run limit calculator).ending = (producer.run limit other).ending ∧
      alike (producer.run limit calculator).calculator (producer.run limit other).calculator := by
  rw [run_eq_feed, run_eq_feed]
  obtain ⟨hevents, hending, -, hlast⟩ := producer.feed_alike hstep _ limit h ()
  exact ⟨hevents, hending, hlast⟩

/-- With a steady calculator a conversation for a consumer takes the same course whatever was asked
of the calculator before. -/
theorem Producer.feed_later {κ τ α : Type} [TokenCalculator κ] {start : κ} (hsteady : Steady start)
    (take : τ → Chunk → Except Failure Unit × τ) (producer : Producer α) (limit : Option Nat)
    {calculator other : κ} (h : Later start calculator) (h' : Later start other) (consumer : τ) :
    let fed := producer.feed take limit calculator consumer
    let fed' := producer.feed take limit other consumer
    fed.1.events = fed'.1.events ∧ fed.1.ending = fed'.1.ending ∧ fed.2 = fed'.2 ∧
      Later start fed.1.calculator := by
  -- both give the answers of the start, and both go on coming later than the start
  have hstep : ∀ calculator other, Later start calculator ∧ Later start other → ∀ text,
      (count calculator text).1 = (count other text).1 ∧
        Later start (count calculator text).2 ∧ Later start (count other text).2 := by
    rintro calculator other ⟨h, h'⟩ text
    exact ⟨(hsteady calculator h text).trans (hsteady other h' text).symm, h.asked text,
      h'.asked text⟩
  obtain ⟨hevents, hending, hconsumer, hlast, -⟩ :=
    producer.feed_alike hstep take limit ⟨h, h'⟩ consumer
  exact ⟨hevents, hending, hconsumer, hlast⟩

/-! ## The calculators of the registry -/

namespace Calculator

/-- The calculator has no encoding loaded. -/
def IsFresh : Calculator → Prop
  | tokens _ (some _) => False
  | _ => True

theorem isFresh_ofEncoding (name : Option String) : (ofEncoding name).IsFresh := by
  unfold ofEncoding
  split <;> exact trivial

variable [EncodingSource]

/-- The states of a calculator of tokens: nothing is loaded, or what the name stands for. -/
def Names (name : String) (calculator : Calculator) : Prop :=
  calculator = tokens name none ∨
    ∃ encoding, Encoding.load name = .ok encoding ∧ calculator = tokens name (some encoding)

theorem count_of_names {name : String} {calculator : Calculator} (h : calculator.Names name)
    (text : String) : (calculator.count text).1 = ((tokens name none).count text).1 ∧
      (calculator.count text).2.Names name := by
  rcases h with rfl | ⟨encoding, hload, rfl⟩
  · refine ⟨rfl, ?_⟩
    rw [count]
    cases hload : Encoding.load name with
    | ok encoding => exact Or.inr ⟨encoding, hload, rfl⟩
    | error failure => exact Or.inl rfl
  · refine ⟨?_, Or.inr ⟨encoding, hload, rfl⟩⟩
    rw [count, count, hload]

/-- **A calculator with nothing loaded is steady.** -/
theorem steady_of_isFresh {calculator : Calculator} (h : calculator.IsFresh) :
    Steady calculator := by
  match calculator, h with
  | characters, _ =>
    refine steady_of_invariant (· = characters) rfl ?_
    rintro _ rfl text
    exact ⟨rfl, rfl⟩
  | fixed cost, _ =>
    refine steady_of_invariant (· = fixed cost) rfl ?_
    rintro _ rfl text
    exact ⟨rfl, rfl⟩
  | tokens name none, _ =>
    exact steady_of_invariant (Names name) (Or.inl rfl) fun calculator h text =>
      count_of_names h text

end Calculator

namespace CalculatorRegistry

/-- The registry as it is at the start holds the factories that are listed. -/
theorem factories_builtin (key : String) :
    builtin.factories[key]? = builtinFactories.lookup key := by
  by_cases hmem : key ∈ builtinFactories.map Prod.fst
  · simp only [builtinFactories, List.map_cons, List.map_nil, List.mem_cons, List.not_mem_nil,
      or_false] at hmem
    rcases hmem with rfl | rfl | rfl | rfl <;> rfl
  · rw [builtin, Std.TreeMap.getElem?_ofList_of_contains_eq_false (by simpa using hmem), eq_comm,
      List.lookup_eq_none_iff]
    intro entry hentry
    rw [bne_iff_ne]
    rintro rfl
    exact hmem (List.mem_map_of_mem hentry)

/-- What is looked up among the names that are registered from the start is registered there. -/
theorem mem_builtinFactories {key : String} {factory : CalculatorFactory}
    (h : builtin.factories[key]? = some factory) : (key, factory) ∈ builtinFactories := by
  rw [factories_builtin, List.lookup_eq_some_iff] at h
  obtain ⟨earlier, later, hlist, -⟩ := h
  rw [hlist]
  exact List.mem_append_right earlier List.mem_cons_self

/-- A calculator that is made under one of the names registered from the start has nothing
loaded. -/
theorem isFresh_of_create {name encoding : Option String} {calculator : Calculator}
    (h : builtin.create name encoding = .ok calculator) : calculator.IsFresh := by
  unfold create at h
  split at h
  · next factory hfactory =>
    have hmem := mem_builtinFactories hfactory
    simp only [builtinFactories, List.mem_cons, Prod.mk.injEq, List.not_mem_nil, or_false] at hmem
    rcases hmem with ⟨-, rfl⟩ | ⟨-, rfl⟩ | ⟨-, rfl⟩ | ⟨-, rfl⟩
    all_goals obtain rfl := Except.ok.inj h
    · exact Calculator.isFresh_ofEncoding encoding
    · exact Calculator.isFresh_ofEncoding encoding
    · exact trivial
    · exact trivial
  · cases h

end CalculatorRegistry

end SourceChunks
